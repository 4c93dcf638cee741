import DevP2P.Discv5.SessionExchange
import DevP2P.Lib.Curve
import DevP2P.Lib.Digest

/-!
# Two clients agree on a session

The two ends of an exchange compute the challenge data, the identity proof, the key agreement and the associated
data along different paths: one from what `encode_packet` reports, the other one from what `decode_packet` returns;
one from an uncompressed key, the other one from a compressed one.

* `Exchange.Laws` : what is assumed of the third-party functions, at the values of the exchange;
* `Exchange.Agreement` : the sessions that the two end up with;
* `handshake_agreement` : the second client accepts the handshake, and the sessions agree.
-/

namespace DevP2P.Discv5
open DevP2P.Lib DevP2P.Rlp

namespace Exchange

variable {env : ClientPrimitives} {peer : ValidatedPeer} {endpointA endpointB : Endpoint}

/-- The documented behaviour of the third-party functions, at the values of the exchange: the serialisations of
the keys `P` of `a`, `Q` of `b` and `E`, the ephemeral one, are read back; the Diffie-Hellman points agree; the two
signatures of `a` verify; decryption inverts encryption. -/
structure Laws (x : Exchange env peer endpointA endpointB) (P Q E : env.secp.PubKey) : Prop where
  readP : env.secp.ReadBack P
  readQ : env.secp.ReadBack Q
  readE : env.secp.ReadBack E
  agree : env.secp.Agree x.ephemeral.privateKey E x.b.config.privateKey Q
  enr : ∀ bindAddr port, env.makeAddress x.a.config.bindIp = some bindAddr → x.a.boundPort = some port →
    env.secp.Verifies x.a.config.privateKey (enrDigest env x.a.config bindAddr port P) P
  idProof : env.secp.Verifies x.a.config.privateKey (idProofDigest env x.challenge.challengeData
    (env.secp.serializeCompressed E).bytes (deriveNodeAddress env x.b.config.publicKey)) P
  gcm : ∀ key nonce plaintext authData, env.gcmDecrypt key nonce (env.gcmEncrypt key nonce plaintext authData).1
    (env.gcmEncrypt key nonce plaintext authData).2 authData = some plaintext

/-- The sessions after `b` has handled the handshake and become `b'`. -/
structure Agreement (x : Exchange env peer endpointA endpointB) (b' : Discv5Client)
    (sessionA sessionB : SessionState) : Prop where
  storedA : x.aAnswered.sessions.lookup (endpointKey env endpointB) = some sessionA
  storedB : b'.sessions.lookup (endpointKey env endpointA) = some sessionB
  nodeA : sessionB.remoteNodeId = x.a.config.publicKey
  addrA : sessionB.remoteNodeAddr = deriveNodeAddress env x.a.config.publicKey
  nodeB : sessionA.remoteNodeId = x.b.config.publicKey
  addrB : sessionA.remoteNodeAddr = deriveNodeAddress env x.b.config.publicKey
  writeKey : sessionA.writeKey = sessionB.readKey
  readKey : sessionA.readKey = sessionB.writeKey
  accepted : b'.counters.handshakePackets = x.bChallenged'.counters.handshakePackets + 1
  /-- What `b` decrypts is the request that `a` makes for its peer. -/
  decrypted : ∃ view, decodePacket env x.handshake (deriveNodeAddress env x.b.config.publicKey) = .ok view ∧
    ∃ plaintext, makeFindnodePlaintext (findnodeReqId peer) = .ok plaintext ∧
      decryptGcm env sessionB.readKey view.nonce view.msgData view.headerData = .ok plaintext
  /-- The request is read from it, and answered. -/
  request : b'.tasks = x.bChallenged'.tasks ++ [.handleFindnodeRequest (findnodeReqId peer) endpointA]

/-- What `b` reads from the handshake packet. -/
theorem handshake_view {config : Discv5Config} {port : UInt16} {record : Bytes} {iv : Option MaskingIv}
    {nonce : GcmNonce} {localNodeAddr destination : NodeAddress} {signature : FixedBytes kEnrSigBytes}
    {pubkey : FixedBytes kCompressedKeyBytes} {encoded : EncodedPacket}
    (henr : makeLocalEnrRecord env config port = .ok record)
    (h : encodePacket env iv kFlagHandshake nonce
      (makeHandshakeAuthData localNodeAddr signature.bytes pubkey.bytes record) [] destination = .ok encoded)
    (encrypted : Bytes) :
    ∃ view, decodePacket env (encoded.packet ++ encrypted) destination = .ok view ∧ view.flag = kFlagHandshake ∧
      view.nonce = nonce ∧ view.headerData = encoded.headerData ∧
      parseHandshakeAuth view.authData = .ok ⟨localNodeAddr, signature.bytes, pubkey.bytes, record⟩ ∧
      view.msgData = encrypted := by
  have hsize : (makeHandshakeAuthData localNodeAddr signature.bytes pubkey.bytes record).length < 2 ^ 16 := by
    have := length_makeLocalEnrRecord_le henr
    rw [length_makeHandshakeAuthData, signature.size_eq, pubkey.size_eq]
    show 34 + 64 + 33 + record.length < 2 ^ 16
    omega
  refine ⟨_, decodePacket_encodePacket hsize h encrypted, rfl, rfl, rfl, ?_, rfl⟩
  apply parseHandshakeAuth_makeHandshakeAuthData
  · rw [signature.size_eq]
    decide
  · rw [pubkey.size_eq]
    decide

end Exchange

open Exchange in
/-- **The second client accepts the handshake, and the two sessions agree**: it stores a session with the first
client's node id, under the mirrored keys, and decrypts exactly the request that the first client makes for it. This
holds for all nonces, masking IVs, ephemeral keys and random messages, and whatever the two clients do in between at
other endpoints. -/
theorem handshake_agreement {env : ClientPrimitives} {peer : ValidatedPeer} {endpointA endpointB : Endpoint}
    (x : Exchange env peer endpointA endpointB) {P Q E : env.secp.PubKey} (hset : x.Setting)
    (hP : x.a.config.KeyPair env P) (hQ : x.b.config.KeyPair env Q)
    (hE : env.secp.pubkeyCreate x.ephemeral.privateKey = some E) (hlaws : x.Laws P Q E) :
    ∃ b', handlePacket env x.handshake endpointA x.bChallenged' = some b' ∧
      ∃ sessionA sessionB, x.Agreement b' sessionA sessionB := by
  obtain ⟨-, -, -, -, -, -, -, -, -, -, -, hconfigB, hremote⟩ := retried_spec hset
  obtain ⟨port, record, signature, shared, nonce, encoded, encrypted, hbound, henr, hsig, hshared, hencoded,
    hencrypted, hhandshake, hsessionA⟩ := answered hset hlaws.readE hE
  have hconfig : x.bChallenged'.config = x.b.config := by rw [x.b_waits'.config, hconfigB]
  have hchallenge : x.bChallenged'.sentChallenges.lookup (endpointKey env endpointA) = some x.challenge := by
    rw [x.b_waits'.challenge, x.challenge_kept]
  obtain ⟨view, hview, hflag, hnonce, hheader, hauth, hmsg⟩ := handshake_view henr hencoded encrypted
  rw [← hhandshake] at hview
  obtain ⟨decoded, hdecoded, verified, hverified, hnode⟩ := makeLocalEnrRecord_accepted hP hlaws.readP
    (fun bindAddr haddr => hlaws.enr bindAddr port haddr hbound) henr
  have hproof := verifyIdSignature_makeIdSignature (parseNodeId_of_keyPair hP hlaws.readP) hlaws.idProof hsig
  have hsharedB := sharedSecret_agree hlaws.readE (parseNodeId_of_keyPair hQ hlaws.readQ) hlaws.agree hshared
  have haccept (f : Counters → Counters) : acceptHandshake env view (endpointKey env endpointA)
      (counting f x.bChallenged') = .ok ⟨(x.keys shared).readKey, (x.keys shared).writeKey,
        deriveNodeAddress env x.a.config.publicKey, x.a.config.publicKey, []⟩ (counting f x.bChallenged') := by
    have hf : (counting f x.bChallenged').config = x.b.config := hconfig
    have := acceptHandshake_of (c := counting f x.bChallenged') hauth hchallenge hremote.symm
      (makeLocalEnrRecord_ne_nil henr) hdecoded hverified (by rw [hnode]) (by rw [hnode, hf]; exact hproof)
      (by rw [hf]; exact hsharedB)
    rwa [hf, hnode] at this
  have hdecrypt : decryptGcm env (x.keys shared).writeKey view.nonce view.msgData view.headerData =
      .ok (kMsgFindNode :: findnodeBytes (findnodeReqId peer)) := by
    rw [hnonce, hmsg, hheader]
    exact decryptGcm_encryptGcm (hlaws.gcm _ _ _ _) hencrypted
  have hhandled := handlePacket_handshake (hconfig ▸ hview) hflag (haccept _) hdecrypt
    (findnode_read_back (length_findnodeReqId peer))
  exact ⟨_, hhandled,
    ⟨(x.keys shared).writeKey, (x.keys shared).readKey, deriveNodeAddress env x.b.config.publicKey,
      x.b.config.publicKey, findnodeReqId peer⟩,
    ⟨(x.keys shared).readKey, (x.keys shared).writeKey, deriveNodeAddress env x.a.config.publicKey,
      x.a.config.publicKey, findnodeReqId peer⟩, {
    storedA := hsessionA
    storedB := Finmap.lookup_insert _
    nodeA := rfl
    addrA := rfl
    nodeB := rfl
    addrB := rfl
    writeKey := rfl
    readKey := rfl
    accepted := rfl
    decrypted := ⟨view, hview, _, makeFindnodePlaintext_run (length_findnodeReqId peer), hdecrypt⟩
    request := rfl }⟩

/-! ## Two clients on one host -/

/-- The keys of the private keys 2, 5 and 3: those of the two clients and the ephemeral one. -/
def pointA : Curve.Point where
  x := 0xc6047f9441ed7d6d3045406e95c07cd85c778e4b8cef3ca7abac09b95c709ee5
  y := 0x1ae168fea63dc339a3c58419466ceaeef7f632653266d0e1236431a950cfe52a

@[inherit_doc pointA]
def pointB : Curve.Point where
  x := 0x2f8bde4d1a07209355b4a7250a5c5128e88b84bddc619ab7cba8d569b240efe4
  y := 0xd8ac222636e5e3d6d4dba9dda6c9c426f788271bab0d6840dca87d3aa6ac62d6

@[inherit_doc pointA]
def pointE : Curve.Point where
  x := 0xf9308a019258c31049344f85f89d5229b531c845836f99b08601f113bce036f9
  y := 0x388f7b0f632de8140fe337e62a37f3566500a99934c2231b6cb9fd7584b8e672

def secretKey (k : Nat) : Rlpx.PrivateKey := .load _ (beStore 32 k)

def pointNodeId (P : Curve.Point) : NodeId := .load _ ((Curve.uncompressed P).bytes.drop 1)

/-- The digests that the first client signs: of its record and of its identity proof. -/
def recordDigest : Nat := 0xccf49a7b74d851871c8123dfdaa56c0b13e98a7ef0fa34a1e127f928f3c4686f

@[inherit_doc recordDigest]
def proofDigest : Nat := 0x0f591c5051d51c5c768a887555acc22378a62d59ba882aad8bc352c008ae10a5

def signatureNonce (message : FixedBytes 32) : Nat :=
  if beLoad message.bytes = recordDigest then 0x13fe0117d83588dbb3e9a422e65cadbc5dcff61e19efb2ed65646fadb47a677a
  else 0x8a248e5237bf198e400788316a9df55a18c5c269be1798b448fe23f6896c65e8

/-- Byte `i` of a stream of 32-byte words. -/
def byteOfWords (ws : List Nat) (i : Nat) : UInt8 := UInt8.ofNat (ws.getD (i / 32) 0 >>> (8 * (31 - i % 32)))

/-- The AES-128-CTR keystreams that the three headers are masked with, by the first byte of the IV. -/
def maskWords (tag : UInt8) : List Nat :=
  if tag = 1 then
    [0x6fa836b0064bd472624cca3817afc7767ce9bc11f58fcc92df99c2279d7f9e16,
    0x25dfb48ab866198322d4c40aa5db9c8af4147643154c1f000000000000000000]
  else if tag = 2 then
    [0xd74380670bc7c25b31066e8e01fb685beb7cafca3099c1807f6c3b1a591fdabb,
    0x605e0daa7982f16a95bc0e75ae8c360000000000000000000000000000000000]
  else
    [0xcffb89336a9aea0265adeb2f3ca474f2e6c193aeab24ae217058dc2fa0413af2,
    0x9682ad224f3960896d535ef4e1e9c0f5ba38cd57f23d5c1426056345306dee57,
    0xd5dd6e4dafa0ea81c7a2225a35d624142dc6de540f97f872e47b2dcb405df3b2,
    0xb4dc7cc57849e1868fa491391f63d433335c59e54ee29e3459a5b2e80ac8754c,
    0xcba9b5466cf2e97f8214f45a9b533e4528d5d59fd8317929022dae3c66d253b1,
    0xd655563a4c472bfb6d9aeb9d2a134ef747fddf20a1e658a42ac773e40fa02222,
    0x6cd61212f8c012369a5d98f615484d5c4101c2c4b14c49da018beae608a4d016,
    0x409dc038609818982ea875812ec0f5ad8300a20bdb096dbd4860aedb23e534ea,
    0xf209ecacc939c8332f44e536324000904b8af7706990f8c29b7f57b9ed26e048,
    0xedc4f1ed316e9400000000000000000000000000000000000000000000000000]

/-- The AES-128-GCM keystream and tag of the request. -/
def requestStream : List Nat := [0x4507ab37f1692a867a9c4c4fcaac48d0c6dbe339ed625d33a38b82c243b36b37]

@[inherit_doc requestStream]
def requestTag : FixedBytes kGcmTagBytes := .load _ (beStore 16 0xffb51a758cf3e4aacf7280b41504e152)

/-- The key and the nonce that the request is encrypted with. -/
def requestKey : SessionKey := .load _ (beStore 16 0x061051bc2aa882758d8acba5d070def5)

@[inherit_doc requestKey]
def answerNonce : GcmNonce := .load _ (beStore 12 0x15161718191a1b1c1d1e1f20)

def dotted (a : FixedBytes kIPv4Bytes) : Bytes :=
  List.intercalate (ascii ['.']) (a.bytes.map fun b => ascii (Nat.toDigits 10 b.toNat))

def loopback : FixedBytes kIPv4Bytes := ⟨[127, 0, 0, 1], rfl⟩

/-- The third-party functions on what the exchange below passes to them. -/
def exchangeEnv : ClientPrimitives where
  secp := Curve.library fun message _ => signatureNonce message
  keccak256 := keccak256
  sha256 := sha256
  hmacSha256 := hmacSha256
  aes256Block _ block := block
  aes256Ctr _ _ := 0
  aes128Ctr _ iv := byteOfWords (maskWords (Bytes.at iv.bytes 0))
  addressV4ToString := dotted
  addressV6ToString a := a.bytes
  cipherContext := true
  gcmEncrypt key nonce plaintext _ :=
    if key = requestKey ∧ nonce = answerNonce then (streamXor (byteOfWords requestStream) 0 plaintext, requestTag)
    else (plaintext, .zero _)
  gcmDecrypt key nonce ciphertext tag _ :=
    if key = requestKey ∧ nonce = answerNonce then
      if tag = requestTag then some (streamXor (byteOfWords requestStream) 0 ciphertext) else none
    else some ciphertext
  makeAddress ip := if ip = dotted loopback then some (.v4 loopback) else none
  addressToString
    | .v4 a => dotted a
    | .v6 a _ => a.bytes

def keyedClient (P : Curve.Point) (k : Nat) (port : UInt16) : Discv5Client where
  config := ⟨dotted loopback, port, secretKey k, pointNodeId P, none⟩
  boundPort := some port
  sessions := ∅
  pendingRequests := ∅
  sentChallenges := ∅
  crawler := ⟨none, [], ∅, ∅, ∅, 0, 0, 0, 0, []⟩
  counters := {}
  tasks := []
  sent := []

def sampleDraws : Draws where
  openNonce := ⟨[1, 2, 3, 4, 5, 6, 7, 8, 9, 10, 11, 12], rfl⟩
  randomMsg := ⟨List.replicate 20 7, rfl⟩
  openIv := ⟨1 :: List.replicate 15 0, rfl⟩
  idNonce := ⟨[41, 42, 43, 44, 45, 46, 47, 48, 49, 50, 51, 52, 53, 54, 55, 56], rfl⟩
  challengeIv := ⟨2 :: List.replicate 15 0, rfl⟩
  keyDraws := [some (secretKey 3)]
  answerNonce := answerNonce
  answerIv := ⟨3 :: List.replicate 15 0, rfl⟩

def listeningPeer : ValidatedPeer := ⟨pointNodeId pointB, dotted loopback, 30304, 30304, none⟩

def sampleClientA : Discv5Client := keyedClient pointA 2 30303

def sampleClientB : Discv5Client := keyedClient pointB 5 30304

def sampleEndpointA : Endpoint := ⟨.v4 loopback, 30303⟩

def sampleEndpointB : Endpoint := ⟨.v4 loopback, 30304⟩

/-- `(r, s)` is the signature of the first client, and is verified. -/
def Signs (message : FixedBytes 32) (r s : Nat) : Prop :=
  Curve.sign (signatureNonce message) (beLoad message.bytes) (Curve.scalar (secretKey 2)) = some (r, s, recoveryId 0) ∧
    r < Curve.order ∧ s < Curve.order ∧ Curve.verify r s (beLoad message.bytes) pointA = true

instance (message : FixedBytes 32) (r s : Nat) : Decidable (Signs message r s) := by
  unfold Signs
  infer_instance

theorem computed_signatures :
    enrDigest exchangeEnv sampleClientA.config (.v4 loopback) 30303 pointA = .load _ (beStore 32 recordDigest) ∧
    idProofDigest exchangeEnv sampleDraws.challengeData (Curve.compressed pointE).bytes
      (deriveNodeAddress exchangeEnv (pointNodeId pointB)) = .load _ (beStore 32 proofDigest) ∧
    Signs (.load _ (beStore 32 recordDigest)) 0x961166db98ea64a2d8c55ca8acadb89b8529c12c4696afeee7a03e308a40eb7f
      0x24e7c131a9a9f7d64eebc48adbc929e8368ca3b67196782fd58d4b5f772fa3ea ∧
    Signs (.load _ (beStore 32 proofDigest)) 0x93126a6f53f258ce4cccee6bb8dbf3c1dbe848dda4a8d88f24d271896ad2834e
      0x04bf2903591ce5f4416567a3c362c0184082ed4907975ac7599ebb520b6db2e4 := by
  decide +kernel

theorem computed_points :
    (∀ P ∈ [pointA, pointB, pointE], Curve.parse (Curve.uncompressed P).bytes = some P ∧
      Curve.parse (Curve.compressed P).bytes = some P) ∧
    (∀ kP ∈ [(2, pointA), (5, pointB), (3, pointE)],
      Curve.mul (Curve.scalar (secretKey kP.1)) Curve.generator = some kP.2) ∧
    (Curve.mul (Curve.scalar (secretKey 3)) pointB).isSome = true ∧
    Curve.mul (Curve.scalar (secretKey 3)) pointB = Curve.mul (Curve.scalar (secretKey 5)) pointE ∧
    Rlpx.Ecdh.generateEphemeralKeypair exchangeEnv.toRlpxPrimitives sampleDraws.keyDraws =
      .ok ⟨pointNodeId pointE, secretKey 3⟩ := by
  decide +kernel

theorem read_back {P : Curve.Point} (h : P ∈ [pointA, pointB, pointE]) : exchangeEnv.secp.ReadBack P :=
  Curve.library_readBack (computed_points.1 P h).1 (computed_points.1 P h).2

theorem verifies_of_signs {message : FixedBytes 32} {r s : Nat} (h : Signs message r s) :
    exchangeEnv.secp.Verifies (secretKey 2) message pointA :=
  Curve.library_verifies h.1 h.2.1 h.2.2.1 h.2.2.2

theorem signCompact_of_signs {message : FixedBytes 32} {r s : Nat} (h : Signs message r s) :
    ∃ signature, signCompact exchangeEnv message (secretKey 2) = .ok signature := by
  refine ⟨_, signCompact_eq_ok_iff.mpr ⟨rfl, (r, s, 0), ?_, rfl⟩⟩
  show (Curve.library fun message _ => signatureNonce message).signRecoverable message (secretKey 2) = _
  rw [Curve.library_signRecoverable]
  exact h.1

theorem makeAddress_loopback : exchangeEnv.makeAddress (dotted loopback) = some (.v4 loopback) := by
  show (if dotted loopback = dotted loopback then some (.v4 loopback) else none) = some (IpAddress.v4 loopback)
  exact if_pos rfl

theorem gcm_inverse (key : SessionKey) (nonce : GcmNonce) (plaintext authData : Bytes) :
    exchangeEnv.gcmDecrypt key nonce (exchangeEnv.gcmEncrypt key nonce plaintext authData).1
      (exchangeEnv.gcmEncrypt key nonce plaintext authData).2 authData = some plaintext := by
  by_cases h : key = requestKey ∧ nonce = answerNonce
  · simp only [exchangeEnv, if_pos h, if_true, streamXor_streamXor]
  · simp only [exchangeEnv, if_neg h]

theorem keyPair_of {P : Curve.Point} {k : Nat} (port : UInt16)
    (h : (k, P) ∈ [(2, pointA), (5, pointB), (3, pointE)]) : (keyedClient P k port).config.KeyPair exchangeEnv P where
  pubkey := by
    show (Curve.library fun message _ => signatureNonce message).pubkeyCreate (secretKey k) = some P
    rw [Curve.library_pubkeyCreate]
    exact computed_points.2.1 (k, P) h
  nodeId := by
    show _ = kUncompressedPubKeyPrefix :: (pointNodeId P).bytes
    unfold pointNodeId
    rw [FixedBytes.bytes_load_self (by simp)]
    rfl

theorem readBack_A : exchangeEnv.secp.ReadBack pointA := read_back (by simp)

theorem readBack_B : exchangeEnv.secp.ReadBack pointB := read_back (by simp)

theorem readBack_E : exchangeEnv.secp.ReadBack pointE := read_back (by simp)

theorem keyPair_A : sampleClientA.config.KeyPair exchangeEnv pointA := keyPair_of _ (by simp)

theorem keyPair_B : sampleClientB.config.KeyPair exchangeEnv pointB := keyPair_of _ (by simp)

theorem canAnswer_A : CanAnswer exchangeEnv sampleDraws sampleClientA sampleClientB.config.publicKey
    ⟨pointNodeId pointE, secretKey 3⟩ where
  cipher := rfl
  drawn := computed_points.2.2.2.2
  idProof := by
    obtain ⟨-, hdigest, -, hsigns⟩ := computed_signatures
    obtain ⟨signature, hsignature⟩ := signCompact_of_signs hsigns
    refine ⟨Curve.compressed pointE, compressPublicKey_eq_ok_iff.mpr ⟨rfl, pointE, ?_, rfl⟩, signature, ?_⟩
    · exact parseNodeId_of_readBack readBack_E
    · exact (congrArg (signCompact exchangeEnv · (secretKey 2)) hdigest).trans hsignature
  record := by
    obtain ⟨hdigest, -, hsigns, -⟩ := computed_signatures
    obtain ⟨signature, hsignature⟩ := signCompact_of_signs hsigns
    refine ⟨30303, rfl, _, makeLocalEnrRecord_eq_ok_iff.mpr
      ⟨Curve.compressed pointA, ?_, .v4 loopback, makeAddress_loopback, signature, ?_, rfl⟩⟩
    · exact compressPublicKey_eq_ok_iff.mpr ⟨rfl, pointA, parseNodeId_of_keyPair keyPair_A readBack_A, rfl⟩
    · exact (congrArg (signCompact exchangeEnv · (secretKey 2)) hdigest).trans hsignature
  secret := by
    obtain ⟨R, hR⟩ := Option.isSome_iff_exists.mp computed_points.2.2.1
    refine ⟨_, sharedSecretFrom_eq_ok_iff.mpr
      ⟨rfl, pointB, parseNodeId_of_keyPair keyPair_B readBack_B, R, ?_, rfl⟩⟩
    show (Curve.library fun message _ => signatureNonce message).pubkeyTweakMul pointB (secretKey 3) = some R
    rw [Curve.library_pubkeyTweakMul]
    exact hR

theorem fresh_keyedClient (key : Bytes) (P : Curve.Point) (k : Nat) (port : UInt16) :
    Fresh key (keyedClient P k port) := ⟨rfl, rfl, rfl⟩

theorem agree_sample : exchangeEnv.secp.Agree (secretKey 3) pointE (secretKey 5) pointB := by
  show (Curve.library fun message _ => signatureNonce message).pubkeyTweakMul pointB (secretKey 3) =
    (Curve.library fun message _ => signatureNonce message).pubkeyTweakMul pointE (secretKey 5)
  rw [Curve.library_pubkeyTweakMul]
  exact computed_points.2.2.2.1

theorem ephemeral_sample : exchangeEnv.secp.pubkeyCreate (secretKey 3) = some pointE :=
  (keyPair_of 0 (by simp)).pubkey

theorem laws_sample {x : Exchange exchangeEnv listeningPeer sampleEndpointA sampleEndpointB} (ha : x.a = sampleClientA)
    (hb : x.b = sampleClientB) (heph : x.ephemeral = ⟨pointNodeId pointE, secretKey 3⟩)
    (hdata : x.challenge.challengeData = sampleDraws.challengeData) : x.Laws pointA pointB pointE where
  readP := readBack_A
  readQ := readBack_B
  readE := readBack_E
  agree := by
    rw [heph, hb]
    exact agree_sample
  enr := by
    intro bindAddr port haddr hport
    rw [ha] at haddr hport ⊢
    obtain rfl : 30303 = port := Option.some.inj hport
    obtain rfl : .v4 loopback = bindAddr := Option.some.inj (makeAddress_loopback.symm.trans haddr)
    obtain ⟨hdigest, -, hsigns, -⟩ := computed_signatures
    rw [hdigest]
    exact verifies_of_signs hsigns
  idProof := by
    obtain ⟨-, hdigest, -, hsigns⟩ := computed_signatures
    rw [hdata, ha, hb]
    exact hdigest ▸ verifies_of_signs hsigns
  gcm := gcm_inverse

/-- Two clients that have just started. -/
theorem started_clients_agree : ∃ x : Exchange exchangeEnv listeningPeer sampleEndpointA sampleEndpointB,
    x.a = sampleClientA ∧ x.b = sampleClientB ∧
    ∃ b', handlePacket exchangeEnv x.handshake sampleEndpointA x.bChallenged' = some b' ∧
      ∃ sessionA sessionB, x.Agreement b' sessionA sessionB := by
  have hreach : Reaches exchangeEnv listeningPeer sampleEndpointB := ⟨rfl, rfl, makeAddress_loopback⟩
  obtain ⟨x, ha, hb, heph, hdata⟩ := @exists_exchange _ _ sampleEndpointA _ _ _ sampleDraws _ hreach rfl
    (fresh_keyedClient _ pointA 2 30303) (fresh_keyedClient _ pointB 5 30304) canAnswer_A
  have hset : x.Setting := by
    refine ⟨by rw [hb]; rfl, rfl, rfl, ?_, ?_⟩
    · rw [ha]
      exact fresh_keyedClient _ _ _ _
    · rw [hb]
      exact fresh_keyedClient _ _ _ _
  refine ⟨x, ha, hb, handshake_agreement x hset ?_ ?_ ?_ (laws_sample ha hb heph hdata)⟩
  · rw [ha]
    exact keyPair_A
  · rw [hb]
    exact keyPair_B
  · rw [heph]
    exact ephemeral_sample

end DevP2P.Discv5
