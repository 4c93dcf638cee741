import DevP2P.Rlp.Decoder
import DevP2P.Rlp.Encoder
import DevP2P.Rlpx.Ecies
import DevP2P.Rlpx.FrameSecrets
import DevP2P.Rlpx.Transport

/-!
# The handshake (`rlpx/auth/auth_handshake.cpp`)

The initiator sends an auth message and reads an ack; the responder does the reverse. Each then derives the
secrets of the session from its `AuthKeyMaterial`.

* `createAuthMessage`, `parseAckMessage` : the initiator's side; `parseAuthMessage`, `createAckMessage` : the
  responder's;
* `initiate`, `respond` : the two branches of `execute`, up to the derivation of the secrets;
* `execute`.
-/

namespace DevP2P.Rlpx
open DevP2P.Lib DevP2P.Rlp Stateful

abbrev kEip8LengthPrefixSize : Nat := 2
abbrev kEip8AuthPaddingSize : Nat := 100
abbrev kMaxEip8HandshakePacketSize : Nat := 2048
abbrev kEcdsaCompactSigSize : Nat := 64
abbrev kEcdsaSigSize : Nat := kEcdsaCompactSigSize + 1
abbrev kAuthVersionSize : Nat := 1

def kAuthVersion : UInt8 := 4

structure HandshakeConfig where
  localPublicKey : PublicKey
  localPrivateKey : PrivateKey
  /-- The peer's static key, known to the initiator only. -/
  peerPublicKey : Option PublicKey
deriving DecidableEq

def HandshakeConfig.isInitiator (config : HandshakeConfig) : Bool := config.peerPublicKey.isSome

structure HandshakeResult where
  keyMaterial : AuthKeyMaterial
  frameSecrets : FrameSecrets
deriving DecidableEq

structure HandshakeRandomness where
  keyDraws : List (Option PrivateKey)
  nonce : Option Nonce
  padding : FixedBytes kEip8AuthPaddingSize
  ecies : EciesCipher.Randomness

/-- What the variables of the run that have no initialiser hold at first. -/
structure UninitMemory where
  keyMaterial : AuthKeyMaterial
  frameSecrets : UninitSecrets

def lengthPrefix (n : Nat) : Bytes :=
  let prefixVal := n % 2 ^ 16
  [UInt8.ofNat (prefixVal >>> 8), UInt8.ofNat (prefixVal &&& 0xFF)]

variable (env : RlpxPrimitives)

/-! ## Messages -/

/-- `[signature, public key, nonce, version]`. -/
def encodeAuthBody (signature : Bytes) (publicKey : PublicKey) (nonce : Nonce) : EncodeM Bytes := do
  beginList
  addBytes signature
  addBytes publicKey.bytes
  addBytes nonce.bytes
  addUInt (T := .uint64) (BitVec.ofNat _ kAuthVersion.toNat)
  endList
  moveBytes

def createAuthMessage (random : HandshakeRandomness) (localPrivateKey : PrivateKey)
    (localPublicKey : PublicKey) (ephemeralPrivateKey : PrivateKey) (nonce : Nonce)
    (remotePublicKey : PublicKey) : Except AuthError Bytes := do
  rejectIf (env.secp.contextCreate = false) .kSignatureInvalid
  let token ← (Ecdh.computeSharedSecret env remotePublicKey localPrivateKey).mapError fun _ =>
    .kSharedSecretFailed
  let signedMsg := token.xor nonce
  let sig ← Outcome.unwrap (env.secp.signRecoverable signedMsg ephemeralPrivateKey) .kSignatureInvalid
  let compact := env.secp.recoverableSerializeCompact sig
  let signature := compact.1.bytes ++ [UInt8.ofNat compact.2]
  let rlp ← Stateful.outcome
    (withError .kSignatureInvalid (encodeAuthBody signature localPublicKey nonce) .new)
  let rlpBody := rlp ++ random.padding.bytes
  EciesCipher.encrypt env random.ecies {
    plaintext := rlpBody
    recipientPublicKey := remotePublicKey
    sharedMacData := lengthPrefix (rlpBody.length + kEciesOverheadSize) }

/-- The fields of `uninit` that the message does not set stay as they are. -/
def parseAuthMessage (uninit : AuthKeyMaterial) (encryptedAuth : Bytes) (localPrivateKey : PrivateKey)
    (sharedMacData : Bytes) : Except AuthError AuthKeyMaterial := do
  let authBody ← EciesCipher.decrypt env ⟨encryptedAuth, localPrivateKey, sharedMacData⟩
  rejectIf (authBody.length < kEcdsaSigSize + kNonceSize + kPublicKeySize + kNonceSize + kAuthVersionSize)
    .kInvalidAuthMessage
  let offset := kEcdsaSigSize + kNonceSize
  return { uninit with
    peerPublicKey := .load _ (authBody.drop offset)
    initiatorNonce := .load _ (authBody.drop (offset + kPublicKeySize))
    initiatorAuthMessage := authBody
    recipientAckMessage := [] }

def createAckMessage (random : HandshakeRandomness) (ephemeralPublicKey : PublicKey) (nonce : Nonce)
    (remotePublicKey : PublicKey) : Except AuthError Bytes :=
  EciesCipher.encrypt env random.ecies {
    plaintext := ephemeralPublicKey.bytes ++ nonce.bytes ++ [kAuthVersion]
    recipientPublicKey := remotePublicKey
    sharedMacData := [] }

/-- The list header, the 64-byte key and the 32-byte nonce of an ack; the rest is ignored. -/
def decodeAckBody : EStateM AuthError RlpDecoder (PublicKey × Nonce) := do
  let _ ← withError .kInvalidAckMessage readListHeaderBytes
  let pubkeyBytes ← withError .kInvalidAckMessage readBytes
  rejectIf (pubkeyBytes.length ≠ kPublicKeySize) .kInvalidAckMessage
  let nonceBytes ← withError .kInvalidAckMessage readBytes
  rejectIf (nonceBytes.length ≠ kNonceSize) .kInvalidAckMessage
  return (.load _ pubkeyBytes, .load _ nonceBytes)

def parseAckMessage (encryptedAck : Bytes) (localPrivateKey : PrivateKey) (sharedMacData : Bytes)
    (keys : AuthKeyMaterial) : Except AuthError AuthKeyMaterial := do
  let ackPlain ← EciesCipher.decrypt env ⟨encryptedAck, localPrivateKey, sharedMacData⟩
  let ack ← Stateful.outcome (decodeAckBody ⟨ackPlain⟩)
  return { keys with peerEphemeralPublicKey := ack.1, recipientNonce := ack.2 }

/-! ## The exchange -/

/-- A value, or the failure of the handshake. -/
def orFail {ε α : Type} (x : Except ε α) : TransportM α :=
  Stateful.lift (x.mapError fun _ => .kAuthenticationFailed)

/-- A packet: the two bytes of its length, and the bytes themselves. -/
structure Packet where
  lenBytes : Bytes
  body : Bytes
deriving DecidableEq

def Packet.wire (p : Packet) : Bytes := p.lenBytes ++ p.body

def packetLength (lenBytes : Bytes) : Nat :=
  ((Bytes.at lenBytes 0).toNat <<< 8) ||| (Bytes.at lenBytes 1).toNat

def readPacket : TransportM Packet := do
  let lenBytes ← withError .kAuthenticationFailed (readExact kEip8LengthPrefixSize)
  rejectIf (kMaxEip8HandshakePacketSize < packetLength lenBytes) .kAuthenticationFailed
  let body ← withError .kAuthenticationFailed (readExact (packetLength lenBytes))
  return ⟨lenBytes, body⟩

/-- The initiator sends its auth message; the result is what it has written. -/
def sendAuth (random : HandshakeRandomness) (config : HandshakeConfig) (peerPublicKey : PublicKey)
    (keypair : Ecdh.KeyPair) (localNonce : Nonce) : TransportM Bytes := do
  let authCiphertext ← orFail (createAuthMessage env random config.localPrivateKey config.localPublicKey
    keypair.privateKey localNonce peerPublicKey)
  let authWire := lengthPrefix authCiphertext.length ++ authCiphertext
  withError .kAuthenticationFailed (writeAll authWire)
  return authWire

def receiveAck (uninit : AuthKeyMaterial) (config : HandshakeConfig) (peerPublicKey : PublicKey)
    (keypair : Ecdh.KeyPair) (localNonce : Nonce) (authWire : Bytes) : TransportM AuthKeyMaterial := do
  let ack ← readPacket
  let keys := { uninit with
    localEphemeralPublicKey := keypair.publicKey
    localEphemeralPrivateKey := keypair.privateKey
    initiatorNonce := localNonce
    initiatorAuthMessage := authWire
    recipientAckMessage := ack.wire }
  let keys ← orFail (parseAckMessage env ack.body config.localPrivateKey ack.lenBytes keys)
  return { keys with peerPublicKey }

def initiate (random : HandshakeRandomness) (uninit : AuthKeyMaterial) (config : HandshakeConfig)
    (peerPublicKey : PublicKey) (keypair : Ecdh.KeyPair) (localNonce : Nonce) : TransportM AuthKeyMaterial := do
  let authWire ← sendAuth env random config peerPublicKey keypair localNonce
  receiveAck env uninit config peerPublicKey keypair localNonce authWire

def respond (random : HandshakeRandomness) (uninit : AuthKeyMaterial) (config : HandshakeConfig)
    (keypair : Ecdh.KeyPair) (localNonce : Nonce) : TransportM AuthKeyMaterial := do
  let auth ← readPacket
  let keys ← orFail (parseAuthMessage env uninit auth.body config.localPrivateKey auth.lenBytes)
  let keys := { keys with
    initiatorAuthMessage := auth.body
    localEphemeralPublicKey := keypair.publicKey
    localEphemeralPrivateKey := keypair.privateKey
    recipientNonce := localNonce }
  let ack ← orFail (createAckMessage env random keypair.publicKey localNonce keys.peerPublicKey)
  withError .kAuthenticationFailed (writeAll (lengthPrefix ack.length ++ ack))
  return { keys with recipientAckMessage := ack }

/-- `execute` up to the derivation of the secrets. -/
def exchange (random : HandshakeRandomness) (uninit : UninitMemory) (config : HandshakeConfig) :
    TransportM AuthKeyMaterial := do
  let keypair ← orFail (Ecdh.generateEphemeralKeypair env random.keyDraws)
  let localNonce ← orFail (Outcome.unwrap random.nonce ())
  match config.peerPublicKey with
  | some peer => initiate env random uninit.keyMaterial config peer keypair localNonce
  | none => respond env random uninit.keyMaterial config keypair localNonce

def execute (random : HandshakeRandomness) (uninit : UninitMemory) (config : HandshakeConfig) :
    TransportM HandshakeResult := do
  let keyMaterial ← exchange env random uninit config
  return ⟨keyMaterial, deriveFrameSecrets env uninit.frameSecrets keyMaterial config.isInitiator⟩

/-! ## What a successful exchange went through -/

variable {env}

theorem orFail_eq_ok {ε α : Type} {x : Except ε α} {a : α} {t t' : SocketTransport} :
    orFail x t = .ok a t' ↔ x = .ok a ∧ t' = t := by
  unfold orFail
  rw [lift_eq_ok, Outcome.mapError_eq_ok]

/-- The packet `p` and then `rest` is `incoming`. -/
def Packet.Leads (p : Packet) (incoming rest : Bytes) : Prop :=
  incoming = p.wire ++ rest ∧ p.lenBytes.length = kEip8LengthPrefixSize ∧
    p.body.length = packetLength p.lenBytes ∧ p.body.length ≤ kMaxEip8HandshakePacketSize

theorem readPacket_eq_ok_iff {p : Packet} {t t' : SocketTransport} :
    readPacket t = .ok p t' ↔
      p.Leads t.incoming t'.incoming ∧ t' = { t with incoming := t'.incoming } := by
  unfold readPacket
  constructor
  · intro h
    obtain ⟨lenBytes, t1, hlen, h⟩ := bind_eq_ok.mp h
    obtain ⟨hn, hin, ht1⟩ := readExact_eq_ok_iff.mp (withError_eq_ok.mp hlen)
    obtain ⟨hmax, h⟩ := rejectIf_bind_eq_ok.mp h
    obtain ⟨body, t2, hbody, h⟩ := bind_eq_ok.mp h
    obtain ⟨hn', hin', ht2⟩ := readExact_eq_ok_iff.mp (withError_eq_ok.mp hbody)
    rw [pure_apply, EStateM.Result.ok.injEq] at h
    obtain ⟨rfl, rfl⟩ := h
    refine ⟨⟨?_, hn, hn', hn' ▸ Nat.not_lt.mp hmax⟩, ?_⟩
    · rw [hin, hin', Packet.wire, List.append_assoc]
    · rw [ht2, ht1]
  · intro ⟨⟨hin, hn, hn', hmax⟩, ht⟩
    refine bind_eq_ok.mpr ⟨p.lenBytes, { t with incoming := p.body ++ t'.incoming }, ?_, ?_⟩
    · refine withError_eq_ok.mpr (readExact_eq_ok_iff.mpr ⟨hn, ?_, rfl⟩)
      rw [hin, Packet.wire, List.append_assoc]
    · refine rejectIf_bind_eq_ok.mpr ⟨Nat.not_lt.mpr (hn' ▸ hmax), ?_⟩
      exact bind_eq_ok.mpr
        ⟨p.body, t', withError_eq_ok.mpr (readExact_eq_ok_iff.mpr ⟨hn', rfl, ht⟩), rfl⟩

theorem parseAckMessage_eq_ok_iff {ack mac : Bytes} {priv : PrivateKey} {keys keys' : AuthKeyMaterial} :
    parseAckMessage env ack priv mac keys = .ok keys' ↔
      ∃ plain, EciesCipher.decrypt env ⟨ack, priv, mac⟩ = .ok plain ∧
      ∃ key nonce d, decodeAckBody ⟨plain⟩ = .ok (key, nonce) d ∧
        keys' = { keys with peerEphemeralPublicKey := key, recipientNonce := nonce } := by
  unfold parseAckMessage
  simp only [Outcome.bind_eq_ok, outcome_eq_ok, Outcome.pure_eq_ok, Prod.exists]
  refine exists_congr fun plain => and_congr_right fun _ => exists_congr fun key => exists_congr fun nonce => ?_
  exact ⟨fun ⟨⟨d, hd⟩, hk⟩ => ⟨d, hd, hk.symm⟩, fun ⟨d, hd, hk⟩ => ⟨⟨d, hd⟩, hk.symm⟩⟩

/-- A message as it is written: its length, then the message. -/
def withPrefix (b : Bytes) : Bytes := lengthPrefix b.length ++ b

/-- What `t` is after `data` has been written and a packet, up to `rest`, has been read. -/
def SocketTransport.after (t : SocketTransport) (data rest : Bytes) : SocketTransport :=
  { t with
    incoming := rest, outgoing := t.outgoing ++ data, writeLimit := t.writeLimit.map (· - data.length) }

/-- What the initiator has after an exchange: the auth message `auth`, the ack packet `ack` and its contents. -/
def initiatorKeys (peer : PublicKey) (keypair : Ecdh.KeyPair) (nonce : Nonce) (auth : Bytes) (ack : Packet)
    (ackKey : PublicKey) (ackNonce : Nonce) : AuthKeyMaterial where
  peerPublicKey := peer
  peerEphemeralPublicKey := ackKey
  localEphemeralPublicKey := keypair.publicKey
  localEphemeralPrivateKey := keypair.privateKey
  initiatorNonce := nonce
  recipientNonce := ackNonce
  initiatorAuthMessage := withPrefix auth
  recipientAckMessage := ack.wire

/-- What the responder has after an exchange. Nothing has written to the peer's ephemeral key. -/
def responderKeys (uninit : AuthKeyMaterial) (keypair : Ecdh.KeyPair) (nonce : Nonce) (auth : Packet)
    (authBody ack : Bytes) : AuthKeyMaterial where
  peerPublicKey := .load _ (authBody.drop (kEcdsaSigSize + kNonceSize))
  peerEphemeralPublicKey := uninit.peerEphemeralPublicKey
  localEphemeralPublicKey := keypair.publicKey
  localEphemeralPrivateKey := keypair.privateKey
  initiatorNonce := .load _ (authBody.drop (kEcdsaSigSize + kNonceSize + kPublicKeySize))
  recipientNonce := nonce
  initiatorAuthMessage := auth.body
  recipientAckMessage := ack

section

variable {random : HandshakeRandomness} {uninit : AuthKeyMaterial} {config : HandshakeConfig}
  {peer : PublicKey} {keypair : Ecdh.KeyPair} {nonce : Nonce} {t t' : SocketTransport} {keys : AuthKeyMaterial}

theorem initiate_eq_ok_iff : initiate env random uninit config peer keypair nonce t = .ok keys t' ↔
    ∃ auth, createAuthMessage env random config.localPrivateKey config.localPublicKey keypair.privateKey nonce
        peer = .ok auth ∧ t.CanWrite (withPrefix auth).length ∧
    ∃ ack : Packet, ack.Leads t.incoming t'.incoming ∧
    ∃ plain, EciesCipher.decrypt env ⟨ack.body, config.localPrivateKey, ack.lenBytes⟩ = .ok plain ∧
    ∃ ackKey ackNonce d, decodeAckBody ⟨plain⟩ = .ok (ackKey, ackNonce) d ∧
      keys = initiatorKeys peer keypair nonce auth ack ackKey ackNonce ∧
      t' = t.after (withPrefix auth) t'.incoming := by
  unfold initiate sendAuth receiveAck
  simp only [bind_eq_ok, orFail_eq_ok, withError_eq_ok, writeAll_eq_ok_iff,
    readPacket_eq_ok_iff, parseAckMessage_eq_ok_iff, pure_apply, EStateM.Result.ok.injEq]
  constructor
  · intro h
    obtain ⟨wire, t1, ⟨auth, t0, ⟨hauth, rfl⟩, -, t2, ⟨hcan, rfl⟩, rfl, rfl⟩, ack, t3, ⟨hlead, ht3⟩, keys1, t4,
      ⟨hparse, rfl⟩, hk, ht⟩ := h
    obtain ⟨plain, hplain, ackKey, ackNonce, d, hdec, rfl⟩ := hparse
    subst hk ht
    exact ⟨auth, hauth, hcan, ack, hlead, plain, hplain, ackKey, ackNonce, d, hdec, rfl, ht3⟩
  · intro h
    obtain ⟨auth, hauth, hcan, ack, hlead, plain, hplain, ackKey, ackNonce, d, hdec, rfl, ht⟩ := h
    exact ⟨_, _, ⟨auth, t, ⟨hauth, rfl⟩, (), _, ⟨hcan, rfl⟩, rfl, rfl⟩, ack, t', ⟨hlead, ht⟩, _, t',
      ⟨⟨plain, hplain, ackKey, ackNonce, d, hdec, rfl⟩, rfl⟩, rfl, rfl⟩

theorem parseAuthMessage_eq_ok_iff {auth mac : Bytes} {priv : PrivateKey} :
    parseAuthMessage env uninit auth priv mac = .ok keys ↔
      ∃ body, EciesCipher.decrypt env ⟨auth, priv, mac⟩ = .ok body ∧
        kEcdsaSigSize + kNonceSize + kPublicKeySize + kNonceSize + kAuthVersionSize ≤ body.length ∧
        keys = { uninit with
          peerPublicKey := .load _ (body.drop (kEcdsaSigSize + kNonceSize))
          initiatorNonce := .load _ (body.drop (kEcdsaSigSize + kNonceSize + kPublicKeySize))
          initiatorAuthMessage := body
          recipientAckMessage := [] } := by
  unfold parseAuthMessage
  rw [Outcome.bind_eq_ok]
  refine exists_congr fun body => and_congr_right fun _ => ?_
  rw [Outcome.rejectIf_bind_eq_ok, Outcome.pure_eq_ok, Nat.not_lt, eq_comm]

theorem respond_eq_ok_iff : respond env random uninit config keypair nonce t = .ok keys t' ↔
    ∃ auth : Packet, auth.Leads t.incoming t'.incoming ∧
    ∃ body, EciesCipher.decrypt env ⟨auth.body, config.localPrivateKey, auth.lenBytes⟩ = .ok body ∧
      kEcdsaSigSize + kNonceSize + kPublicKeySize + kNonceSize + kAuthVersionSize ≤ body.length ∧
    ∃ ack, createAckMessage env random keypair.publicKey nonce
        (.load _ (body.drop (kEcdsaSigSize + kNonceSize))) = .ok ack ∧
      t.CanWrite (withPrefix ack).length ∧ keys = responderKeys uninit keypair nonce auth body ack ∧
      t' = t.after (withPrefix ack) t'.incoming := by
  unfold respond
  simp only [bind_eq_ok, orFail_eq_ok, withError_eq_ok, writeAll_eq_ok_iff,
    readPacket_eq_ok_iff, parseAuthMessage_eq_ok_iff, pure_apply, EStateM.Result.ok.injEq]
  constructor
  · intro h
    obtain ⟨auth, t1, ⟨hlead, ht1⟩, keys1, t2, ⟨⟨body, hbody, hlen, rfl⟩, rfl⟩, ack, t3, ⟨hack, rfl⟩, -, t4,
      ⟨hcan, rfl⟩, hk, ht⟩ := h
    subst hk ht
    rw [ht1] at hcan
    exact ⟨auth, hlead, body, hbody, hlen, ack, hack, hcan, rfl, by rw [ht1]; rfl⟩
  · intro h
    obtain ⟨auth, hlead, body, hbody, hlen, ack, hack, hcan, rfl, ht⟩ := h
    exact ⟨auth, { t with incoming := t'.incoming }, ⟨hlead, rfl⟩, _, _, ⟨⟨body, hbody, hlen, rfl⟩, rfl⟩, ack, _,
      ⟨hack, rfl⟩, (), t', ⟨hcan, ht⟩, rfl, rfl⟩

theorem exchange_eq_ok_iff {uninit : UninitMemory} : exchange env random uninit config t = .ok keys t' ↔
    ∃ keypair, Ecdh.generateEphemeralKeypair env random.keyDraws = .ok keypair ∧
    ∃ nonce, random.nonce = some nonce ∧
      match config.peerPublicKey with
      | some peer => initiate env random uninit.keyMaterial config peer keypair nonce t = .ok keys t'
      | none => respond env random uninit.keyMaterial config keypair nonce t = .ok keys t' := by
  unfold exchange
  simp only [bind_eq_ok, orFail_eq_ok, Outcome.unwrap_eq_ok]
  constructor
  · intro h
    obtain ⟨keypair, t1, ⟨hkey, rfl⟩, nonce, t2, ⟨hnonce, rfl⟩, h⟩ := h
    refine ⟨keypair, hkey, nonce, hnonce, ?_⟩
    cases hpeer : config.peerPublicKey with
    | none => rwa [hpeer] at h
    | some peer => rwa [hpeer] at h
  · intro h
    obtain ⟨keypair, hkey, nonce, hnonce, h⟩ := h
    refine ⟨keypair, t, ⟨hkey, rfl⟩, nonce, t, ⟨hnonce, rfl⟩, ?_⟩
    cases hpeer : config.peerPublicKey with
    | none => rwa [hpeer] at h
    | some peer => rwa [hpeer] at h

theorem execute_eq_ok_iff {uninit : UninitMemory} {result : HandshakeResult} :
    execute env random uninit config t = .ok result t' ↔
      exchange env random uninit config t = .ok result.keyMaterial t' ∧
      result.frameSecrets =
        deriveFrameSecrets env uninit.frameSecrets result.keyMaterial config.isInitiator := by
  unfold execute
  simp only [bind_eq_ok, pure_apply, EStateM.Result.ok.injEq]
  constructor
  · intro h
    obtain ⟨keys, t1, h, rfl, rfl⟩ := h
    exact ⟨h, rfl⟩
  · intro h
    exact ⟨result.keyMaterial, t', h.1, by rw [← h.2], rfl⟩

end

end DevP2P.Rlpx
