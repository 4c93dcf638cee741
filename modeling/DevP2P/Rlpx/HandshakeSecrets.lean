import DevP2P.Lib.Digest
import DevP2P.Rlpx.Handshake

/-!
# Sessions without a shared secret

`derive_frame_secrets` has no error to return: when the ECDH with the peer's ephemeral key fails, it hands back
secrets nobody has written to, and `execute` reports success.

* `Derived` : the secrets of a result are those of its ECDH secret;
* `PeerKey` : an exchange goes through and leaves the end with an ephemeral key of its peer;
* `secrets_derived_iff` : a successful run has derived secrets exactly when the ECDH with that key succeeds;
* `invalid_peer_key_accepted` : an ack with an invalid key.
-/

namespace DevP2P.Rlpx
open DevP2P.Lib DevP2P.Rlp

variable (env : RlpxPrimitives)

/-- The ECDH of a result's ephemeral keys succeeded, and its secrets follow from it. -/
def Derived (config : HandshakeConfig) (result : HandshakeResult) : Prop :=
  ∃ secret, Ecdh.computeSharedSecret env result.keyMaterial.peerEphemeralPublicKey
      result.keyMaterial.localEphemeralPrivateKey = .ok secret ∧
    result.frameSecrets = keccakChain env result.keyMaterial config.isInitiator secret

/-- The bytes of the peer begin with an ack for `config` that holds the ephemeral key `key`. -/
def AckCarries (config : HandshakeConfig) (incoming : Bytes) (key : PublicKey) : Prop :=
  ∃ (ack : Packet) (rest : Bytes), ack.Leads incoming rest ∧
  ∃ plain, EciesCipher.decrypt env ⟨ack.body, config.localPrivateKey, ack.lenBytes⟩ = .ok plain ∧
  ∃ nonce d, decodeAckBody ⟨plain⟩ = .ok (key, nonce) d

/-- The bytes of the peer begin with an auth message for `config`, which can be answered. -/
def AuthAnswered (random : HandshakeRandomness) (config : HandshakeConfig) (keypair : Ecdh.KeyPair)
    (nonce : Nonce) (t : SocketTransport) : Prop :=
  ∃ (auth : Packet) (rest : Bytes), auth.Leads t.incoming rest ∧
  ∃ body, EciesCipher.decrypt env ⟨auth.body, config.localPrivateKey, auth.lenBytes⟩ = .ok body ∧
    kEcdsaSigSize + kNonceSize + kPublicKeySize + kNonceSize + kAuthVersionSize ≤ body.length ∧
  ∃ ack, createAckMessage env random keypair.publicKey nonce (.load _ (body.drop (kEcdsaSigSize + kNonceSize))) =
      .ok ack ∧ t.CanWrite (withPrefix ack).length

/-- With the bytes that the peer sends the exchange goes through, the end's ephemeral private key being `mine`
and `key` being what it takes for its peer's ephemeral key: for an initiator the key in the ack, for a responder
what the uninitialised array holds. -/
def PeerKey (random : HandshakeRandomness) (uninit : UninitMemory) (config : HandshakeConfig)
    (t : SocketTransport) (mine : PrivateKey) (key : PublicKey) : Prop :=
  ∃ keypair, Ecdh.generateEphemeralKeypair env random.keyDraws = .ok keypair ∧ keypair.privateKey = mine ∧
  ∃ nonce, random.nonce = some nonce ∧
    match config.peerPublicKey with
    | some peer =>
      (∃ auth, createAuthMessage env random config.localPrivateKey config.localPublicKey keypair.privateKey nonce
        peer = .ok auth ∧ t.CanWrite (withPrefix auth).length) ∧ AckCarries env config t.incoming key
    | none => AuthAnswered env random config keypair nonce t ∧ key = uninit.keyMaterial.peerEphemeralPublicKey

variable {env}

section

variable {random : HandshakeRandomness} {uninit : UninitMemory} {config : HandshakeConfig}
  {t t' : SocketTransport}

/-- An exchange that goes through leaves the end with the ephemeral keys of `PeerKey`. -/
theorem peerKey_of_exchange {keys : AuthKeyMaterial} (h : exchange env random uninit config t = .ok keys t') :
    PeerKey env random uninit config t keys.localEphemeralPrivateKey keys.peerEphemeralPublicKey := by
  obtain ⟨keypair, hkey, nonce, hnonce, h⟩ := exchange_eq_ok_iff.mp h
  unfold PeerKey
  cases hpeer : config.peerPublicKey with
  | some peer =>
      rw [hpeer] at h
      obtain ⟨auth, hauth, hcan, ack, hlead, plain, hplain, ackKey, ackNonce, d, hdec, rfl, -⟩ :=
        initiate_eq_ok_iff.mp h
      exact ⟨keypair, hkey, rfl, nonce, hnonce, ⟨auth, hauth, hcan⟩, ack, _, hlead, plain, hplain, ackNonce, d, hdec⟩
  | none =>
      rw [hpeer] at h
      obtain ⟨auth, hlead, body, hbody, hlen, ack, hack, hcan, rfl, -⟩ := respond_eq_ok_iff.mp h
      exact ⟨keypair, hkey, rfl, nonce, hnonce, ⟨auth, _, hlead, body, hbody, hlen, ack, hack, hcan⟩, rfl⟩

/-- The ephemeral keys of `PeerKey` are those of an exchange that goes through. -/
theorem exchange_of_peerKey {mine : PrivateKey} {key : PublicKey}
    (h : PeerKey env random uninit config t mine key) :
    ∃ keys t', exchange env random uninit config t = .ok keys t' ∧
      keys.localEphemeralPrivateKey = mine ∧ keys.peerEphemeralPublicKey = key := by
  obtain ⟨keypair, hkey, rfl, nonce, hnonce, h⟩ := h
  simp only [exchange_eq_ok_iff]
  cases hpeer : config.peerPublicKey with
  | some peer =>
      rw [hpeer] at h
      obtain ⟨⟨auth, hauth, hcan⟩, ack, rest, hlead, plain, hplain, ackNonce, d, hdec⟩ := h
      have hrun : initiate env random uninit.keyMaterial config peer keypair nonce t =
          .ok _ (t.after (withPrefix auth) rest) :=
        initiate_eq_ok_iff.mpr ⟨auth, hauth, hcan, ack, hlead, plain, hplain, key, ackNonce, d, hdec, rfl, rfl⟩
      exact ⟨_, _, ⟨keypair, hkey, nonce, hnonce, hrun⟩, rfl, rfl⟩
  | none =>
      rw [hpeer] at h
      obtain ⟨⟨auth, rest, hlead, body, hbody, hlen, ack, hack, hcan⟩, rfl⟩ := h
      have hrun : respond env random uninit.keyMaterial config keypair nonce t =
          .ok _ (t.after (withPrefix ack) rest) :=
        respond_eq_ok_iff.mpr ⟨auth, hlead, body, hbody, hlen, ack, hack, hcan, rfl, rfl⟩
      exact ⟨_, _, ⟨keypair, hkey, nonce, hnonce, hrun⟩, rfl, rfl⟩

end

theorem derived_iff {uninit : UninitSecrets} {config : HandshakeConfig} {keys : AuthKeyMaterial} :
    Derived env config ⟨keys, deriveFrameSecrets env uninit keys config.isInitiator⟩ ↔
      ∃ secret, Ecdh.computeSharedSecret env keys.peerEphemeralPublicKey keys.localEphemeralPrivateKey =
        .ok secret := by
  unfold Derived
  exact exists_congr fun secret => and_iff_left_of_imp fun h => deriveFrameSecrets_of_ok h

/-- **A successful handshake has a shared secret only if the peer's ephemeral key has one.** Whatever the peer
sends: every success comes with secrets derived from an ECDH secret if and only if the ECDH succeeds for every
ephemeral key that the exchange can leave the end with. -/
theorem secrets_derived_iff (env : RlpxPrimitives) (random : HandshakeRandomness) (uninit : UninitMemory)
    (config : HandshakeConfig) (t : SocketTransport) :
    (∀ result t', execute env random uninit config t = .ok result t' → Derived env config result) ↔
      ∀ mine key, PeerKey env random uninit config t mine key →
        ∃ secret, Ecdh.computeSharedSecret env key mine = .ok secret := by
  constructor
  · intro h mine key hpeer
    obtain ⟨keys, t', hrun, rfl, rfl⟩ := exchange_of_peerKey hpeer
    exact derived_iff.mp (h ⟨keys, _⟩ t' (execute_eq_ok_iff.mpr ⟨hrun, rfl⟩))
  · intro h result t' hrun
    obtain ⟨hexchange, hsecrets⟩ := execute_eq_ok_iff.mp hrun
    have hderived : Derived env config ⟨result.keyMaterial, result.frameSecrets⟩ := by
      rw [hsecrets]
      exact derived_iff.mpr (h _ _ (peerKey_of_exchange hexchange))
    exact hderived

/-! ## An ack with an invalid key -/

def wordBytes (ws : List Nat) : Bytes := ws.flatMap (beStore 32)

/-- The keystreams that the two messages below are encrypted with, by the first byte of the initial counter
block. -/
def sampleKeystream (tag : UInt8) : List Nat :=
  if tag = 1 then
    [0x2f13e3e54d9f43d32ff9d031cb740c2c0539a81a7769b4c35aeecf32b9170afa,
    0xb503af370a679e81ad7476ecfe0c9284b9a8191ad1642ed62413fac324354a21,
    0xef4111a7771687fd62e4a9643e61d40b75f904b30586055040356516da47c33c,
    0xee6928d5e7029a5abce42dacbc6878d56ccc082fd5d266a27309589c27b7fa20,
    0x208216904a289282ae8dead1c88c0569698fe0deb67088c3da7971393b42e681,
    0xd829328eac68d74a0f8e538563e076ad8287f071600a8cb99365b3cb1f230421,
    0x2835da752909759a2f14340fd075225244079735f24658c40135dadb5dc0c1ab,
    0x2b576053f67fa8169f468541e8b352e46f4bf1de5fe6209097a89e134856fd8d,
    0x1d65880979f63f1fead70301bd00000000000000000000000000000000000000]
  else
    [0x5578474553e1dadd51766265868109a9c1719896bd7abc325ef3add6b80c63f4,
    0xceee5291b3e3008d33d6cf93f23ba8ea81bff3a9cf78693aa77a51cdfe538711,
    0x2e4f422f74e0c094fe26ef9dd4c22888cef65863a8e106865cb11a85b0db840d,
    0xb6ff9bcdd03d0000000000000000000000000000000000000000000000000000]

/-- The curve, the hash functions, and AES-128 on the inputs below. The frame cipher is not used. -/
def handshakeEnv : RlpxPrimitives where
  secp := Curve.library fun _ _ => 0x36c78f7ddf2db01f60fdc3990b607995420ffca69eacf887f8ac41a32d49c4dc
  keccak256 := keccak256
  sha256 := sha256
  hmacSha256 := hmacSha256
  aes256Block _ block := block
  aes256Ctr _ _ := 0
  aes128Ctr _ iv i :=
    UInt8.ofNat ((sampleKeystream (Bytes.at iv.bytes 0)).getD (i / 32) 0 >>> (8 * (31 - i % 32)))

/-- A run with the ephemeral key `key`, the nonce `nonce`, the ECIES key `eciesKey` and an IV that starts with
`tag`. -/
def sampleRandomness (key nonce eciesKey : Nat) (tag : UInt8) : HandshakeRandomness where
  keyDraws := [some (sampleKey key)]
  nonce := some (.load _ (beStore 32 nonce))
  padding := .zero _
  ecies := ⟨[sampleKey eciesKey], ⟨tag :: List.replicate 15 0, rfl⟩⟩

def zeroMemory : UninitMemory where
  keyMaterial := ⟨.zero _, .zero _, .zero _, .zero _, .zero _, .zero _, [], []⟩
  frameSecrets := ⟨.zero _, .zero _⟩

def sampleNonceNat : Nat := 0x0102030405060708090a0b0c0d0e0f101112131415161718191a1b1c1d1e1f20

/-- The end with the static private key `2`, which dials the peer with the static private key `5`. -/
def sampleInitiator : HandshakeConfig := ⟨samplePub 2, sampleKey 2, some (samplePub 5)⟩

/-- The ack that the peer sends: the ephemeral key is 64 zero bytes. -/
def zeroKeyAck : Bytes :=
  (wordBytes
    [0x00d704774ae7f858a9411e5ef4246b70c65aac5649980be5c17891bbec17895d,
    0xa008cbd984a032eb6b5e190243dd56d7b7b365372db1e2dff9d6a8301d74c9c9,
    0x53c61b02000000000000000000000000000000ad1cff0553e1dadd5176626586,
    0x8109a9c1719896bd7abc325ef3add6b80c63f4ceee5291b3e3008d33d6cf93f2,
    0x3ba8ea81bff3a9cf78693aa77a51cdfe5387112e4f422fd4c1e2b7da03c9bafc,
    0xeb02a3e2db764c98d034b568842cb288e2be368ac2a5f290397d6aff8cadbe7c,
    0xab00b4ed43cc880cad8befd12b8471519a43b93e19345d5b0900000000000000]).take 217

def ackTransport : SocketTransport := ⟨zeroKeyAck, .eof, [], none, .eof⟩

/-- **An ack with an invalid ephemeral key leads to success**, with secrets that nothing has written to. -/
theorem invalid_peer_key_accepted : ∃ result t',
    execute handshakeEnv (sampleRandomness 3 sampleNonceNat 7 1) zeroMemory sampleInitiator ackTransport =
      .ok result t' ∧
    result.keyMaterial.peerEphemeralPublicKey = .zero _ ∧
    Ecdh.computeSharedSecret handshakeEnv result.keyMaterial.peerEphemeralPublicKey
      result.keyMaterial.localEphemeralPrivateKey = .error .kInvalidPublicKey ∧
    result.frameSecrets = ⟨.zero _, .zero _, [], []⟩ := by
  have h : Stateful.outcome ((do
      let result ← execute handshakeEnv (sampleRandomness 3 sampleNonceNat 7 1) zeroMemory sampleInitiator
      rejectIf (¬ (result.keyMaterial.peerEphemeralPublicKey = .zero _ ∧
        Ecdh.computeSharedSecret handshakeEnv result.keyMaterial.peerEphemeralPublicKey
          result.keyMaterial.localEphemeralPrivateKey = .error .kInvalidPublicKey ∧
        result.frameSecrets = ⟨.zero _, .zero _, [], []⟩)) SessionError.kInvalidState :
      TransportM Unit) ackTransport) = .ok () := by
    decide +kernel
  obtain ⟨t', h⟩ := Stateful.outcome_eq_ok.mp h
  obtain ⟨result, t1, hrun, h⟩ := Stateful.bind_eq_ok.mp h
  exact ⟨result, t1, hrun, not_not.mp (Stateful.rejectIf_eq_ok.mp h).1⟩

end DevP2P.Rlpx
