import DevP2P.Rlpx.Crypto

/-!
# ECIES (`rlpx/auth/ecies_cipher.cpp`)

* `EciesCipher.encrypt` : ephemeral key, IV, AES-128-CTR ciphertext, HMAC over IV, ciphertext and the shared MAC
  data; `length_of_encrypt`;
* `EciesCipher.decrypt` : the inverse, once the MAC has been checked; `decrypt_parts` : the four parts are cut out
  again;
* `KeyAgreement` : what the curve library does with the two key pairs; `ecies_round_trip`.
-/

namespace DevP2P.Rlpx
open DevP2P.Lib

abbrev kHmacSha256Size : Nat := 32
abbrev kEciesMacSize : Nat := kHmacSha256Size
abbrev kEciesOverheadSize : Nat := kUncompressedPubKeySize + kAesBlockSize + kEciesMacSize

inductive AuthError
  | kEciesEncryptFailed
  | kEciesDecryptFailed
  | kInvalidAuthMessage
  | kInvalidAckMessage
  | kSharedSecretFailed
  | kSignatureInvalid
  | kKeyDerivationFailed
  | kInvalidPublicKey
  | kInvalidNonce
deriving DecidableEq

namespace EciesCipher

variable (env : RlpxPrimitives)

structure EciesKeys where
  encKey : FixedBytes 16
  macKey : FixedBytes 32
deriving DecidableEq

/-- The two halves of the hash of the counter `00000001` and the secret; the second one is hashed again. -/
def deriveKeys (sharedSecret : SharedSecret) : EciesKeys :=
  let kdfOut := env.sha256 ([0x00, 0x00, 0x00, 0x01] ++ sharedSecret.bytes)
  ⟨.load _ kdfOut.bytes, env.sha256 (kdfOut.bytes.drop 16)⟩

def aes128Ctr (data : Bytes) (key : FixedBytes 16) (iv : AesBlock) : Bytes :=
  streamXor (env.aes128Ctr key iv) 0 data

def computeSharedSecret (publicKey : PublicKey) (privateKey : PrivateKey) : Except AuthError SharedSecret :=
  (Ecdh.computeSharedSecret env publicKey privateKey).mapError fun _ => .kSharedSecretFailed

/-- The MAC over the IV, the ciphertext and the shared MAC data. -/
def macOf (keys : EciesKeys) (iv : AesBlock) (ciphertext sharedMacData : Bytes) : FixedBytes 32 :=
  env.hmacSha256 keys.macKey.bytes (iv.bytes ++ ciphertext ++ sharedMacData)

/-- What `encrypt` draws: the contents of the key buffer after each draw, and the IV. -/
structure Randomness where
  keyDraws : List PrivateKey
  iv : AesBlock

structure EncryptParams where
  plaintext : Bytes
  recipientPublicKey : PublicKey
  sharedMacData : Bytes

/-- The loop over the draws ends at the first valid private key; draws without one stand for a loop that has
not ended, reported here as `kEciesEncryptFailed`. -/
def encrypt (random : Randomness) (params : EncryptParams) : Except AuthError Bytes := do
  rejectIf (env.secp.contextCreate = false) .kEciesEncryptFailed
  let ephemeralPriv ← Outcome.unwrap (random.keyDraws.find? env.secp.seckeyVerify) .kEciesEncryptFailed
  let ephemeralPub ← Outcome.unwrap (env.secp.pubkeyCreate ephemeralPriv) .kInvalidPublicKey
  let ephemeralPubBytes := env.secp.serializeUncompressed ephemeralPub
  let sharedSecret ← computeSharedSecret env params.recipientPublicKey ephemeralPriv
  let keys := deriveKeys env sharedSecret
  let ciphertext := aes128Ctr env params.plaintext keys.encKey random.iv
  let mac := macOf env keys random.iv ciphertext params.sharedMacData
  return ephemeralPubBytes.bytes ++ random.iv.bytes ++ ciphertext ++ mac.bytes

structure DecryptParams where
  ciphertext : Bytes
  recipientPrivateKey : PrivateKey
  sharedMacData : Bytes

def decrypt (params : DecryptParams) : Except AuthError Bytes := do
  rejectIf (params.ciphertext.length < kEciesOverheadSize) .kEciesDecryptFailed
  let ephemeralPubBytes := params.ciphertext.take kUncompressedPubKeySize
  let iv : AesBlock := .load _ (params.ciphertext.drop kUncompressedPubKeySize)
  let ctOffset := kUncompressedPubKeySize + kAesBlockSize
  let ctLen := params.ciphertext.length - kEciesOverheadSize
  let ciphertext := (params.ciphertext.drop ctOffset).take ctLen
  let mac := (params.ciphertext.drop (ctOffset + ctLen)).take kEciesMacSize
  let ephemeralPub : PublicKey := .load _ (ephemeralPubBytes.drop kUncompressedPubKeyPrefixSize)
  let sharedSecret ← computeSharedSecret env ephemeralPub params.recipientPrivateKey
  let keys := deriveKeys env sharedSecret
  let expectedMac := macOf env keys iv ciphertext params.sharedMacData
  rejectIf (mac ≠ expectedMac.bytes) .kEciesDecryptFailed
  return aes128Ctr env ciphertext keys.encKey iv

def estimateEncryptedSize (plaintextSize : Nat) : Nat :=
  kUncompressedPubKeySize + kAesBlockSize + plaintextSize + kEciesMacSize

variable {env}

theorem length_of_encrypt {random : Randomness} {params : EncryptParams} {out : Bytes}
    (h : encrypt env random params = .ok out) :
    out.length = estimateEncryptedSize params.plaintext.length := by
  unfold encrypt at h
  obtain ⟨-, h⟩ := Outcome.rejectIf_bind_eq_ok.mp h
  obtain ⟨ephemeralPriv, -, h⟩ := Outcome.bind_eq_ok.mp h
  obtain ⟨ephemeralPub, -, h⟩ := Outcome.bind_eq_ok.mp h
  obtain ⟨sharedSecret, -, h⟩ := Outcome.bind_eq_ok.mp h
  rw [← Outcome.pure_eq_ok.mp h]
  simp [aes128Ctr, estimateEncryptedSize, Nat.add_assoc]

/-! ## The round trip -/

variable (env) in
/-- The library takes `(k, P)` and `(l, Q)` for key pairs, reads back their public keys, and multiplication commutes. -/
structure KeyAgreement (k : PrivateKey) (P : env.secp.PubKey) (l : PrivateKey) (Q : env.secp.PubKey) : Prop where
  context : env.secp.contextCreate = true
  ephemeral : env.secp.seckeyVerify k = true ∧ env.secp.pubkeyCreate k = some P
  recipient : env.secp.seckeyVerify l = true ∧ env.secp.pubkeyCreate l = some Q
  readP : Ecdh.parsePublicKey env (Ecdh.publicKeyOf env P) = some P
  readQ : Ecdh.parsePublicKey env (Ecdh.publicKeyOf env Q) = some Q
  agree : env.secp.Agree k P l Q
  defined : (env.secp.pubkeyTweakMul Q k).isSome = true

variable {k l : PrivateKey} {P Q : env.secp.PubKey}

theorem KeyAgreement.sharedSecret (h : KeyAgreement env k P l Q) :
    ∃ secret, computeSharedSecret env (Ecdh.publicKeyOf env Q) k = .ok secret ∧
      computeSharedSecret env (Ecdh.publicKeyOf env P) l = .ok secret := by
  obtain ⟨S, hS⟩ := Option.isSome_iff_exists.mp h.defined
  have hcompute : ∀ {priv : PrivateKey} {R : env.secp.PubKey}, env.secp.seckeyVerify priv = true →
      Ecdh.parsePublicKey env (Ecdh.publicKeyOf env R) = some R → env.secp.pubkeyTweakMul R priv = some S →
      computeSharedSecret env (Ecdh.publicKeyOf env R) priv = .ok (Ecdh.xCoordinate env S) := by
    intro priv R hvalid hread hmul
    unfold computeSharedSecret Ecdh.computeSharedSecret
    rw [Outcome.rejectIf_bind_of_not (by simp [h.context]), Outcome.rejectIf_bind_of_not (by simp [hvalid]), hread,
      Outcome.unwrap_some, Outcome.ok_bind, hmul, Outcome.unwrap_some, Outcome.ok_bind]
    rfl
  exact ⟨_, hcompute h.ephemeral.1 h.readQ hS, hcompute h.recipient.1 h.readP (h.agree ▸ hS)⟩

variable (env) in
theorem decrypt_parts (pub : FixedBytes 65) (iv : AesBlock) (ciphertext : Bytes) (mac : FixedBytes 32)
    (priv : PrivateKey)
    (sharedMacData : Bytes) :
    decrypt env ⟨pub.bytes ++ iv.bytes ++ ciphertext ++ mac.bytes, priv, sharedMacData⟩ = (do
      let sharedSecret ← computeSharedSecret env (.load _ (pub.bytes.drop kUncompressedPubKeyPrefixSize)) priv
      let keys := deriveKeys env sharedSecret
      rejectIf (mac.bytes ≠ (macOf env keys iv ciphertext sharedMacData).bytes) .kEciesDecryptFailed
      return aes128Ctr env ciphertext keys.encKey iv) := by
  have hlength : (pub.bytes ++ iv.bytes ++ ciphertext ++ mac.bytes).length = kEciesOverheadSize +
      ciphertext.length := by
    simp only [List.length_append, FixedBytes.size_eq, kEciesOverheadSize, kUncompressedPubKeySize,
      kAesBlockSize, kEciesMacSize,
      kHmacSha256Size]
    omega
  have hpub : (pub.bytes ++ iv.bytes ++ ciphertext ++ mac.bytes).take kUncompressedPubKeySize = pub.bytes := by
    rw [List.append_assoc, List.append_assoc, List.take_left' pub.size_eq]
  have hbehind : (pub.bytes ++ iv.bytes ++ ciphertext ++ mac.bytes).drop kUncompressedPubKeySize =
      iv.bytes ++ (ciphertext ++ mac.bytes) := by
    rw [List.append_assoc, List.append_assoc, List.drop_left' pub.size_eq]
  have hrest : (pub.bytes ++ iv.bytes ++ ciphertext ++ mac.bytes).drop (kUncompressedPubKeySize + kAesBlockSize) =
      ciphertext ++ mac.bytes := by
    rw [← List.drop_drop, hbehind, List.drop_left' iv.size_eq]
  unfold decrypt
  simp only [hlength, hpub, hbehind, hrest, Nat.add_sub_cancel_left, List.take_left, FixedBytes.load_append]
  rw [Outcome.rejectIf_bind_of_not (by omega), ← List.drop_drop, hrest, List.drop_left,
    List.take_of_length_le (by simp)]

/-- **ECIES decryption undoes encryption.** For all key pairs that agree, all draws that lead to the ephemeral key `k`,
all IVs, MAC data and plaintexts whose length fits the `int` that it is passed as: `encrypt` succeeds, its output has
the estimated size, and `decrypt` with the private key of the recipient and the same MAC data returns the plaintext.
What is shorter than the overhead is rejected. -/
theorem ecies_round_trip (h : KeyAgreement env k P l Q) (random : Randomness)
    (hdraws : random.keyDraws.find? env.secp.seckeyVerify = some k) (plaintext sharedMacData : Bytes)
    (_hint : plaintext.length < 2 ^ 31) :
    (∃ out, encrypt env random ⟨plaintext, Ecdh.publicKeyOf env Q, sharedMacData⟩ = .ok out ∧
        out.length = estimateEncryptedSize plaintext.length ∧ decrypt env ⟨out, l, sharedMacData⟩ = .ok plaintext) ∧
      ∀ params : DecryptParams, params.ciphertext.length < kEciesOverheadSize →
        decrypt env params = .error .kEciesDecryptFailed := by
  constructor
  · obtain ⟨secret, hsender, hrecipient⟩ := h.sharedSecret
    have hencrypt : encrypt env random ⟨plaintext, Ecdh.publicKeyOf env Q, sharedMacData⟩ = .ok
        ((env.secp.serializeUncompressed P).bytes ++ random.iv.bytes ++
          aes128Ctr env plaintext (deriveKeys env secret).encKey random.iv ++
          (macOf env (deriveKeys env secret) random.iv
            (aes128Ctr env plaintext (deriveKeys env secret).encKey random.iv)
            sharedMacData).bytes) := by
      unfold encrypt
      rw [Outcome.rejectIf_bind_of_not (by simp [h.context]), hdraws, Outcome.unwrap_some,
        Outcome.ok_bind, h.ephemeral.2,
        Outcome.unwrap_some, Outcome.ok_bind]
      dsimp only
      rw [hsender, Outcome.ok_bind]
      rfl
    refine ⟨_, hencrypt, length_of_encrypt hencrypt, ?_⟩
    rw [decrypt_parts]
    show (computeSharedSecret env (Ecdh.publicKeyOf env P) l >>= _) = _
    rw [hrecipient, Outcome.ok_bind]
    dsimp only
    rw [Outcome.rejectIf_bind_of_not (by simp), aes128Ctr, aes128Ctr, streamXor_streamXor]
    rfl
  · intro params hshort
    unfold decrypt
    rw [Outcome.rejectIf_bind_of hshort]

/-! ## A round trip on the curve -/

theorem computed_samplePoints :
    (∀ k ∈ [2, 3], Curve.mul (Curve.scalar (sampleKey k)) Curve.generator = some (samplePoint k) ∧
      Curve.parse (kUncompressedPubKeyPrefix :: (Ecdh.publicKeyOf sampleEnv (samplePoint k)).bytes) =
      some (samplePoint k)) ∧
    Curve.mul (Curve.scalar (sampleKey 2)) (samplePoint 3) = Curve.mul (Curve.scalar (sampleKey 3)) (samplePoint 2) ∧
    (Curve.mul (Curve.scalar (sampleKey 2)) (samplePoint 3)).isSome = true := by
  decide +kernel

theorem samplePair {k : Nat} (h : k ∈ [2, 3]) :
    sampleEnv.secp.seckeyVerify (sampleKey k) = true ∧
      sampleEnv.secp.pubkeyCreate (sampleKey k) = some (samplePoint k) ∧
      Ecdh.parsePublicKey sampleEnv (Ecdh.publicKeyOf sampleEnv (samplePoint k)) = some (samplePoint k) := by
  obtain ⟨hpoint, hparse⟩ := computed_samplePoints.1 k h
  have hverify : ∀ k ∈ [2, 3], (sampleEnv.secp.seckeyVerify (sampleKey k)) = true := by decide +kernel
  refine ⟨hverify k h, ?_, ?_⟩
  · show (Curve.library fun _ _ => 1).pubkeyCreate (sampleKey k) = _
    rw [Curve.library_pubkeyCreate]
    exact hpoint
  · show (Curve.library fun _ _ => 1).pubkeyParse _ = _
    rw [Curve.library_pubkeyParse]
    exact hparse

theorem sample_keyAgreement : KeyAgreement sampleEnv (sampleKey 2) (samplePoint 2) (sampleKey 3) (samplePoint 3) := by
  obtain ⟨hvalid2, hpair2, hread2⟩ := samplePair (k := 2) (by simp)
  obtain ⟨hvalid3, hpair3, hread3⟩ := samplePair (k := 3) (by simp)
  refine ⟨rfl, ⟨hvalid2, hpair2⟩, ⟨hvalid3, hpair3⟩, hread2, hread3, ?_, ?_⟩
  · show (Curve.library fun _ _ => 1).pubkeyTweakMul _ _ = (Curve.library fun _ _ => 1).pubkeyTweakMul _ _
    rw [Curve.library_pubkeyTweakMul]
    exact computed_samplePoints.2.1
  · show ((Curve.library fun _ _ => 1).pubkeyTweakMul _ _).isSome = true
    rw [Curve.library_pubkeyTweakMul]
    exact computed_samplePoints.2.2

theorem ecies_round_trip_on_curve :
    ∃ out, encrypt sampleEnv ⟨[sampleKey 0, sampleKey 2], .zero 16⟩ ⟨[7, 8, 9],
      Ecdh.publicKeyOf sampleEnv (samplePoint 3), [1, 2]⟩ = .ok out ∧
      out.length = 116 ∧ decrypt sampleEnv ⟨out, sampleKey 3, [1, 2]⟩ = .ok [7, 8, 9] :=
  (ecies_round_trip sample_keyAgreement ⟨[sampleKey 0, sampleKey 2], .zero 16⟩ (by decide +kernel) [7, 8, 9]
    [1, 2] (by decide)).1

end EciesCipher

end DevP2P.Rlpx
