import DevP2P.Rlpx.Crypto

/-!
# Frame secrets (`AuthHandshake::derive_frame_secrets`)

* `AuthKeyMaterial` : what the handshake leaves behind; `FrameSecrets` : the keys and MAC seeds of a
  session;
* `keccakChain` : the secrets that an ECDH secret, the nonces and the messages give;
* `deriveFrameSecrets` : the source's function, which has no error to report when the ECDH fails;
* `Mirrored` : two sides' secrets match; `mirrored_keccakChain`.
-/

namespace DevP2P.Rlpx
open DevP2P.Lib

structure AuthKeyMaterial where
  peerPublicKey : PublicKey
  peerEphemeralPublicKey : PublicKey
  localEphemeralPublicKey : PublicKey
  localEphemeralPrivateKey : PrivateKey
  initiatorNonce : Nonce
  recipientNonce : Nonce
  initiatorAuthMessage : Bytes
  recipientAckMessage : Bytes
deriving DecidableEq

structure FrameSecrets where
  aesSecret : AesKey
  macSecret : MacKey
  egressMacSeed : Bytes
  ingressMacSeed : Bytes
deriving DecidableEq

/-- The seed of a MAC: the MAC secret xored with a nonce, then a handshake message. -/
def macSeedBytes (macSecret : MacKey) (nonce : Nonce) (msg : Bytes) : Bytes :=
  (macSecret.xor nonce).bytes ++ msg

variable (env : RlpxPrimitives)

/-- The secrets that follow from the ECDH secret. -/
def keccakChain (keys : AuthKeyMaterial) (isInitiator : Bool) (ecdheSecret : SharedSecret) :
    FrameSecrets :=
  let nonceHash := env.keccak256 (keys.recipientNonce.bytes ++ keys.initiatorNonce.bytes)
  let sharedSecret := env.keccak256 (ecdheSecret.bytes ++ nonceHash.bytes)
  let aesSecret := env.keccak256 (ecdheSecret.bytes ++ sharedSecret.bytes)
  let macSecret := env.keccak256 (ecdheSecret.bytes ++ aesSecret.bytes)
  let authSeed := macSeedBytes macSecret keys.recipientNonce keys.initiatorAuthMessage
  let ackSeed := macSeedBytes macSecret keys.initiatorNonce keys.recipientAckMessage
  if isInitiator then ⟨aesSecret, macSecret, authSeed, ackSeed⟩
  else ⟨aesSecret, macSecret, ackSeed, authSeed⟩

/-- What a local `FrameSecrets` holds before anything is written to it: the two arrays have no
initialiser, the two buffers are empty. -/
structure UninitSecrets where
  aesSecret : AesKey
  macSecret : MacKey

def UninitSecrets.secrets (uninit : UninitSecrets) : FrameSecrets :=
  ⟨uninit.aesSecret, uninit.macSecret, [], []⟩

def deriveFrameSecrets (uninit : UninitSecrets) (keys : AuthKeyMaterial) (isInitiator : Bool) :
    FrameSecrets :=
  match Ecdh.computeSharedSecret env keys.peerEphemeralPublicKey keys.localEphemeralPrivateKey with
  | .error _ => uninit.secrets
  | .ok ecdheSecret => keccakChain env keys isInitiator ecdheSecret

/-- The secrets of two sides match: one key pair, and what one side sends under, the other reads under. -/
structure Mirrored (a b : FrameSecrets) : Prop where
  aesSecret : a.aesSecret = b.aesSecret
  macSecret : a.macSecret = b.macSecret
  egress : a.egressMacSeed = b.ingressMacSeed
  ingress : a.ingressMacSeed = b.egressMacSeed

variable {env}

theorem Mirrored.symm {a b : FrameSecrets} (h : Mirrored a b) : Mirrored b a :=
  ⟨h.aesSecret.symm, h.macSecret.symm, h.ingress.symm, h.egress.symm⟩

theorem deriveFrameSecrets_of_ok {uninit : UninitSecrets} {keys : AuthKeyMaterial} {isInitiator : Bool}
    {secret : SharedSecret}
    (h : Ecdh.computeSharedSecret env keys.peerEphemeralPublicKey keys.localEphemeralPrivateKey =
      .ok secret) :
    deriveFrameSecrets env uninit keys isInitiator = keccakChain env keys isInitiator secret := by
  unfold deriveFrameSecrets
  rw [h]

theorem mirrored_keccakChain {k k' : AuthKeyMaterial} (secret : SharedSecret)
    (hinit : k.initiatorNonce = k'.initiatorNonce) (hrecip : k.recipientNonce = k'.recipientNonce)
    (hauth : k.initiatorAuthMessage = k'.initiatorAuthMessage)
    (hack : k.recipientAckMessage = k'.recipientAckMessage) :
    Mirrored (keccakChain env k true secret) (keccakChain env k' false secret) := by
  unfold keccakChain
  rw [hinit, hrecip, hauth, hack]
  exact ⟨rfl, rfl, rfl, rfl⟩

end DevP2P.Rlpx
