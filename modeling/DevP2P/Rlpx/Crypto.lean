import DevP2P.Lib.Curve
import DevP2P.Lib.Outcome

/-!
# Key agreement (`rlpx/crypto/ecdh.cpp`)

* `RlpxPrimitives` : the third-party functions that the transport calls;
* `Ecdh.computeSharedSecret` : the x-coordinate of a peer's key times a private key;
* `Ecdh.generateEphemeralKeypair` : a key pair from random draws;
* `sampleEnv`, `sampleKey`, `samplePoint`, `samplePub` : the curve and small keys on it, to evaluate the models.
-/

namespace DevP2P.Rlpx
open DevP2P.Lib

abbrev kPublicKeySize : Nat := 64
abbrev kPrivateKeySize : Nat := 32
abbrev kNonceSize : Nat := 32
abbrev kSharedSecretSize : Nat := 32
abbrev kUncompressedPubKeySize : Nat := 65
abbrev kUncompressedPubKeyPrefixSize : Nat := 1
abbrev kAesBlockSize : Nat := 16
abbrev kMacSize : Nat := 16

def kUncompressedPubKeyPrefix : UInt8 := 0x04

abbrev PublicKey := FixedBytes kPublicKeySize
abbrev PrivateKey := FixedBytes kPrivateKeySize
abbrev Nonce := FixedBytes kNonceSize
abbrev SharedSecret := FixedBytes kSharedSecretSize
abbrev AesKey := FixedBytes 32
abbrev MacKey := FixedBytes 32
abbrev AesBlock := FixedBytes kAesBlockSize
abbrev MacDigest := FixedBytes kMacSize

/-- The third-party functions of the transport. A counter-mode cipher is given by its keystream. -/
structure RlpxPrimitives where
  secp : Secp256k1
  keccak256 : Bytes → FixedBytes 32
  sha256 : Bytes → FixedBytes 32
  hmacSha256 : Bytes → Bytes → FixedBytes 32
  /-- AES-256 on one block. -/
  aes256Block : FixedBytes 32 → AesBlock → AesBlock
  /-- The keystream of AES-256-CTR under a key, with a zero initial counter block. -/
  aes256Ctr : FixedBytes 32 → Nat → UInt8
  /-- The keystream of AES-128-CTR under a key and an initial counter block. -/
  aes128Ctr : FixedBytes 16 → AesBlock → Nat → UInt8

inductive CryptoError
  | kAesEncryptFailed
  | kAesDecryptFailed
  | kHmacFailed
  | kKdfFailed
  | kEcdhFailed
  | kInvalidKeySize
  | kInvalidIvSize
  | kInvalidPublicKey
  | kInvalidPrivateKey
  | kOpenSslError
  | kSecp256k1Error
deriving DecidableEq

namespace Ecdh

variable (env : RlpxPrimitives)

def parsePublicKey (publicKey : PublicKey) : Option env.secp.PubKey :=
  env.secp.pubkeyParse (kUncompressedPubKeyPrefix :: publicKey.bytes)

/-- The x-coordinate of a point, after the first byte of its uncompressed form. -/
def xCoordinate (P : env.secp.PubKey) : SharedSecret :=
  .load _ ((env.secp.serializeUncompressed P).bytes.drop kUncompressedPubKeyPrefixSize)

def computeSharedSecret (publicKey : PublicKey) (privateKey : PrivateKey) : Except CryptoError SharedSecret :=
  do
  rejectIf (env.secp.contextCreate = false) .kSecp256k1Error
  rejectIf (env.secp.seckeyVerify privateKey = false) .kInvalidPrivateKey
  let parsedPubkey ← Outcome.unwrap (parsePublicKey env publicKey) .kInvalidPublicKey
  let resultPubkey ← Outcome.unwrap (env.secp.pubkeyTweakMul parsedPubkey privateKey) .kEcdhFailed
  return xCoordinate env resultPubkey

def publicKeyOf (P : env.secp.PubKey) : PublicKey :=
  .load _ ((env.secp.serializeUncompressed P).bytes.drop kUncompressedPubKeyPrefixSize)

structure KeyPair where
  publicKey : PublicKey
  privateKey : PrivateKey
deriving DecidableEq

/-- The loop of `generate_ephemeral_keypair` over the random draws: the first valid private key. A
draw that fails is `none`, as is the end of the draws. -/
def drawPrivateKey : List (Option PrivateKey) → Except CryptoError PrivateKey
  | [] => .error .kOpenSslError
  | none :: _ => .error .kOpenSslError
  | some privateKey :: draws =>
    if env.secp.seckeyVerify privateKey then .ok privateKey else drawPrivateKey draws

def generateEphemeralKeypair (draws : List (Option PrivateKey)) : Except CryptoError KeyPair := do
  rejectIf (env.secp.contextCreate = false) .kSecp256k1Error
  let privateKey ← drawPrivateKey env draws
  let pubkey ← Outcome.unwrap (env.secp.pubkeyCreate privateKey) .kSecp256k1Error
  return ⟨publicKeyOf env pubkey, privateKey⟩

variable {env}

theorem pubkey_of_generateEphemeralKeypair {draws : List (Option PrivateKey)} {keypair : KeyPair}
    (h : generateEphemeralKeypair env draws = .ok keypair) :
    ∃ P, env.secp.pubkeyCreate keypair.privateKey = some P ∧ keypair.publicKey = publicKeyOf env P := by
  unfold generateEphemeralKeypair at h
  obtain ⟨-, h⟩ := Outcome.rejectIf_bind_eq_ok.mp h
  obtain ⟨privateKey, -, h⟩ := Outcome.bind_eq_ok.mp h
  obtain ⟨P, hP, h⟩ := Outcome.bind_eq_ok.mp h
  obtain rfl := Outcome.pure_eq_ok.mp h
  exact ⟨P, Outcome.unwrap_eq_ok.mp hP, rfl⟩

end Ecdh

/-! ## Small keys -/

/-- The curve, with a hash and a cipher of no interest. -/
def sampleEnv : RlpxPrimitives where
  secp := Curve.library fun _ _ => 1
  keccak256 b := .load _ b.reverse
  sha256 b := .load _ b.reverse
  hmacSha256 key data := .load _ (data.reverse ++ key)
  aes256Block key block := block.xor (.load _ key.bytes)
  aes256Ctr key i := Bytes.at key.bytes i
  aes128Ctr key iv i := Bytes.at key.bytes (i % 16) + Bytes.at iv.bytes (i % 16)

def sampleKey (k : Nat) : PrivateKey := .load _ (beStore 32 k)

/-- The point of the private key `k`. -/
def samplePoint (k : Nat) : Curve.Point := (Curve.mul k Curve.generator).getD Curve.generator

def samplePub (k : Nat) : PublicKey := .load _ ((Curve.uncompressed (samplePoint k)).bytes.drop 1)

end DevP2P.Rlpx
