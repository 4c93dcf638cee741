import DevP2P.Discv5.Enr
import DevP2P.Rlpx.Crypto

/-!
# Session cryptography (`discv5/discv5_client.cpp`)

* `ClientPrimitives` : the third-party functions of the client;
* `compressPublicKey`, `sharedSecretFromUncompressedPubkey`, `sharedSecretFromCompressedPubkey` : keys;
* `makeIdSignature`, `verifyIdSignature` : the proof of identity of a handshake;
* `deriveSessionKeys` : the two keys of a session, from a shared secret by HKDF;
* `encryptGcm`, `decryptGcm` : message encryption.

Of each operation a lemma says when it succeeds. `sharedSecret_agree`, `verifyIdSignature_makeIdSignature` and
`decryptGcm_encryptGcm` say what the other end computes.
-/

namespace DevP2P.Discv5
open DevP2P.Lib

abbrev kAes128KeyBytes : Nat := 16
abbrev kMaskingIvBytes : Nat := 16
abbrev kGcmNonceBytes : Nat := 12
abbrev kGcmTagBytes : Nat := 16
abbrev kPrivateKeyBytes : Nat := 32

def kUncompressedPubKeyPrefix : UInt8 := 0x04
def kHkdfFirstBlockCounter : UInt8 := 0x01

/-- The Keccak-256 hash of a node's public key. -/
abbrev NodeAddress := FixedBytes kKeccak256Bytes

abbrev SessionKey := FixedBytes kAes128KeyBytes
abbrev GcmNonce := FixedBytes kGcmNonceBytes
abbrev MaskingIv := FixedBytes kMaskingIvBytes

/-- `asio::ip::address`. -/
inductive IpAddress
  | v4 (bytes : FixedBytes kIPv4Bytes)
  | v6 (bytes : FixedBytes kIPv6Bytes) (scopeId : UInt32)
deriving DecidableEq

structure ClientPrimitives extends Rlpx.RlpxPrimitives, EnrPrimitives where
  /-- Whether a cipher context can be set up. -/
  cipherContext : Bool
  /-- AES-128-GCM: key, nonce, plaintext, associated data; the ciphertext and its tag. -/
  gcmEncrypt : SessionKey → GcmNonce → Bytes → Bytes → Bytes × FixedBytes kGcmTagBytes
  /-- AES-128-GCM: key, nonce, ciphertext, tag, associated data; the plaintext when the tag is right. -/
  gcmDecrypt : SessionKey → GcmNonce → Bytes → FixedBytes kGcmTagBytes → Bytes → Option Bytes
  /-- `asio::ip::make_address`. -/
  makeAddress : Bytes → Option IpAddress
  /-- `asio::ip::address::to_string`. -/
  addressToString : IpAddress → Bytes

variable (env : ClientPrimitives)

def deriveNodeAddress (publicKey : NodeId) : NodeAddress := env.keccak256 publicKey.bytes

/-! ## Keys -/

def parseNodeId (nodeId : NodeId) : Option env.secp.PubKey :=
  env.secp.pubkeyParse (kUncompressedPubKeyPrefix :: nodeId.bytes)

def compressPublicKey (publicKey : NodeId) : Except Discv5Error (FixedBytes kCompressedKeyBytes) := do
  rejectIf (env.secp.contextCreate = false) .kContextCreationFailed
  let pubkey ← Outcome.unwrap (parseNodeId env publicKey) .kEnrInvalidSecp256k1Key
  return env.secp.serializeCompressed pubkey

/-- The end of both `shared_secret_from_...` functions, the key being parsed in their own way. -/
def sharedSecretFrom (parsed : Option env.secp.PubKey) (privateKey : Rlpx.PrivateKey) :
    Except Discv5Error (FixedBytes kCompressedKeyBytes) := do
  rejectIf (env.secp.contextCreate = false) .kContextCreationFailed
  let pubkey ← Outcome.unwrap parsed .kEnrInvalidSecp256k1Key
  let product ← Outcome.unwrap (env.secp.pubkeyTweakMul pubkey privateKey) .kContextCreationFailed
  return env.secp.serializeCompressed product

def sharedSecretFromUncompressedPubkey (remoteNodeId : NodeId) (privateKey : Rlpx.PrivateKey) :
    Except Discv5Error (FixedBytes kCompressedKeyBytes) :=
  sharedSecretFrom env (parseNodeId env remoteNodeId) privateKey

def sharedSecretFromCompressedPubkey (remotePubkey : Bytes) (privateKey : Rlpx.PrivateKey) :
    Except Discv5Error (FixedBytes kCompressedKeyBytes) := do
  rejectIf (remotePubkey.length ≠ kCompressedKeyBytes) .kEnrInvalidSecp256k1Key
  sharedSecretFrom env (env.secp.pubkeyParse remotePubkey) privateKey

/-! ## The proof of identity -/

/-- `"discovery v5 identity proof"`. -/
def kIdProofText : Bytes :=
  ascii ['d', 'i', 's', 'c', 'o', 'v', 'e', 'r', 'y', ' ', 'v', '5', ' ', 'i', 'd', 'e', 'n', 't', 'i', 't', 'y',
    ' ', 'p', 'r', 'o', 'o', 'f']

/-- The digest that both `make_id_signature` and `verify_id_signature` compute. -/
def idProofDigest (challengeData ephPubkey : Bytes) (destination : NodeAddress) : FixedBytes 32 :=
  env.sha256 (kIdProofText ++ challengeData ++ ephPubkey ++ destination.bytes)

/-- The compact signature of a digest, without its recovery id. -/
def signCompact (digest : FixedBytes 32) (privateKey : Rlpx.PrivateKey) :
    Except Discv5Error (FixedBytes kEnrSigBytes) := do
  rejectIf (env.secp.contextCreate = false) .kContextCreationFailed
  let sig ← Outcome.unwrap (env.secp.signRecoverable digest privateKey) .kContextCreationFailed
  return (env.secp.recoverableSerializeCompact sig).1

def makeIdSignature (privateKey : Rlpx.PrivateKey) (challengeData ephPubkey : Bytes) (destination : NodeAddress) :
    Except Discv5Error (FixedBytes kEnrSigBytes) :=
  signCompact env (idProofDigest env challengeData ephPubkey destination) privateKey

def verifyIdSignature (nodeId : NodeId) (signature challengeData ephPubkey : Bytes) (destination : NodeAddress) :
    Bool :=
  if signature.length ≠ kEnrSigBytes ∨ env.secp.contextCreate = false then false
  else match parseNodeId env nodeId, env.secp.signatureParseCompact (.load _ signature) with
    | some pubkey, some sig =>
      env.secp.ecdsaVerify sig (idProofDigest env challengeData ephPubkey destination) pubkey
    | _, _ => false

/-! ## Session keys -/

def hkdfExpand32 (salt ikm info : Bytes) : FixedBytes 32 :=
  env.hmacSha256 (env.hmacSha256 salt ikm).bytes (info ++ [kHkdfFirstBlockCounter])

/-- `"discovery v5 key agreement"`. -/
def kKeyAgreementText : Bytes :=
  ascii ['d', 'i', 's', 'c', 'o', 'v', 'e', 'r', 'y', ' ', 'v', '5', ' ', 'k', 'e', 'y', ' ', 'a', 'g', 'r', 'e',
    'e', 'm', 'e', 'n', 't']

/-- The pair that `derive_session_keys` returns: for the initiator its write key and its read key. -/
structure SessionKeys where
  writeKey : SessionKey
  readKey : SessionKey
deriving DecidableEq

/-- `derive_session_keys`, which has no way to fail: HKDF never does. -/
def deriveSessionKeys (sharedSecret : FixedBytes kCompressedKeyBytes) (challengeData : Bytes)
    (firstId secondId : NodeAddress) : SessionKeys :=
  let okm := hkdfExpand32 env challengeData sharedSecret.bytes
    (kKeyAgreementText ++ firstId.bytes ++ secondId.bytes)
  ⟨.load _ okm.bytes, .load _ (okm.bytes.drop kAes128KeyBytes)⟩

/-! ## Messages -/

def encryptGcm (key : SessionKey) (nonce : GcmNonce) (plaintext authData : Bytes) : Except Discv5Error Bytes := do
  rejectIf (env.cipherContext = false) .kContextCreationFailed
  let sealed := env.gcmEncrypt key nonce plaintext authData
  return sealed.1 ++ sealed.2.bytes

def decryptGcm (key : SessionKey) (nonce : GcmNonce) (ciphertext authData : Bytes) : Except Discv5Error Bytes := do
  rejectIf (ciphertext.length < kGcmTagBytes) .kNetworkReceiveFailed
  rejectIf (env.cipherContext = false) .kContextCreationFailed
  let textSize := ciphertext.length - kGcmTagBytes
  Outcome.unwrap (env.gcmDecrypt key nonce (ciphertext.take textSize) (.load _ (ciphertext.drop textSize)) authData)
    .kNetworkReceiveFailed

/-! ## What succeeds -/

variable {env}

theorem parseNodeId_of_readBack {P : env.secp.PubKey} (h : env.secp.ReadBack P) :
    parseNodeId env (.load _ ((env.secp.serializeUncompressed P).bytes.drop 1)) = some P := by
  have hlen : ((env.secp.serializeUncompressed P).bytes.drop 1).length = kNodeIdBytes := by simp
  have hbytes : (env.secp.serializeUncompressed P).bytes =
      kUncompressedPubKeyPrefix :: (env.secp.serializeUncompressed P).bytes.drop 1 := by
    rw [List.drop_one]
    exact (List.cons_head?_tail h.tag).symm
  unfold parseNodeId
  rw [FixedBytes.bytes_load_self hlen, ← hbytes]
  exact h.uncompressed

theorem compressPublicKey_eq_ok_iff {publicKey : NodeId} {compressed : FixedBytes kCompressedKeyBytes} :
    compressPublicKey env publicKey = .ok compressed ↔ env.secp.contextCreate = true ∧
      ∃ P, parseNodeId env publicKey = some P ∧ env.secp.serializeCompressed P = compressed := by
  unfold compressPublicKey
  rw [Outcome.rejectIf_bind_eq_ok, Bool.not_eq_false]
  simp only [Outcome.bind_eq_ok, Outcome.unwrap_eq_ok, Outcome.pure_eq_ok]

theorem sharedSecretFrom_eq_ok_iff {parsed : Option env.secp.PubKey} {privateKey : Rlpx.PrivateKey}
    {secret : FixedBytes kCompressedKeyBytes} :
    sharedSecretFrom env parsed privateKey = .ok secret ↔ env.secp.contextCreate = true ∧
      ∃ P, parsed = some P ∧
      ∃ Q, env.secp.pubkeyTweakMul P privateKey = some Q ∧ env.secp.serializeCompressed Q = secret := by
  unfold sharedSecretFrom
  rw [Outcome.rejectIf_bind_eq_ok, Bool.not_eq_false]
  simp only [Outcome.bind_eq_ok, Outcome.unwrap_eq_ok, Outcome.pure_eq_ok]

theorem sharedSecret_agree {k l : Rlpx.PrivateKey} {P Q : env.secp.PubKey} {nodeId : NodeId}
    {secret : FixedBytes kCompressedKeyBytes} (hread : env.secp.ReadBack P) (hnode : parseNodeId env nodeId = some Q)
    (hagree : env.secp.Agree k P l Q) (h : sharedSecretFromUncompressedPubkey env nodeId k = .ok secret) :
    sharedSecretFromCompressedPubkey env (env.secp.serializeCompressed P).bytes l = .ok secret := by
  obtain ⟨hctx, Q', hQ', R, hR, rfl⟩ := sharedSecretFrom_eq_ok_iff.mp h
  obtain rfl : Q = Q' := Option.some.inj (hnode.symm.trans hQ')
  unfold sharedSecretFromCompressedPubkey
  rw [Outcome.rejectIf_bind_of_not (by simp)]
  exact sharedSecretFrom_eq_ok_iff.mpr ⟨hctx, P, hread.compressed, R, hagree.symm.trans hR, rfl⟩

theorem signCompact_eq_ok_iff {digest : FixedBytes 32} {privateKey : Rlpx.PrivateKey}
    {signature : FixedBytes kEnrSigBytes} :
    signCompact env digest privateKey = .ok signature ↔ env.secp.contextCreate = true ∧
      ∃ sig, env.secp.signRecoverable digest privateKey = some sig ∧
        (env.secp.recoverableSerializeCompact sig).1 = signature := by
  unfold signCompact
  rw [Outcome.rejectIf_bind_eq_ok, Bool.not_eq_false]
  simp only [Outcome.bind_eq_ok, Outcome.unwrap_eq_ok, Outcome.pure_eq_ok]

theorem verifyIdSignature_makeIdSignature {privateKey : Rlpx.PrivateKey} {nodeId : NodeId} {P : env.secp.PubKey}
    {challengeData ephPubkey : Bytes} {destination : NodeAddress} {signature : FixedBytes kEnrSigBytes}
    (hnode : parseNodeId env nodeId = some P)
    (hlaw : env.secp.Verifies privateKey (idProofDigest env challengeData ephPubkey destination) P)
    (h : makeIdSignature env privateKey challengeData ephPubkey destination = .ok signature) :
    verifyIdSignature env nodeId signature.bytes challengeData ephPubkey destination = true := by
  obtain ⟨hctx, sig, hsig, rfl⟩ := signCompact_eq_ok_iff.mp h
  obtain ⟨s, hs, hverify⟩ := hlaw sig hsig
  unfold verifyIdSignature
  rw [if_neg (by simp [hctx]), hnode, FixedBytes.load_bytes, hs]
  exact hverify

theorem decryptGcm_encryptGcm {key : SessionKey} {nonce : GcmNonce} {plaintext authData ciphertext : Bytes}
    (hlaw : env.gcmDecrypt key nonce (env.gcmEncrypt key nonce plaintext authData).1
      (env.gcmEncrypt key nonce plaintext authData).2 authData = some plaintext)
    (h : encryptGcm env key nonce plaintext authData = .ok ciphertext) :
    decryptGcm env key nonce ciphertext authData = .ok plaintext := by
  obtain ⟨hctx, h⟩ := Outcome.rejectIf_bind_eq_ok.mp h
  cases h
  unfold decryptGcm
  rw [Outcome.rejectIf_bind_of_not (by simp), Outcome.rejectIf_bind_of_not hctx, Outcome.unwrap_eq_ok]
  simp only [List.length_append, FixedBytes.length_bytes, Nat.add_sub_cancel, List.take_left, List.drop_left,
    FixedBytes.load_bytes]
  exact hlaw

end DevP2P.Discv5
