import DevP2P.Lib.Bytes

/-!
# The secp256k1 library

The operations of the elliptic-curve library, as functions on its own key and signature types. Nothing is
assumed about them here; the laws that the library documents are stated for single keys and messages.

* `Secp256k1.ReadBack` : the serialisations of a key are read back;
* `Secp256k1.Verifies` : a key verifies the signatures that a private key makes of a message;
* `Secp256k1.Agree` : two key pairs have one Diffie-Hellman point.
-/

namespace DevP2P.Lib

structure Secp256k1 where
  PubKey : Type
  Signature : Type
  RecoverableSignature : Type
  /-- Whether a context can be allocated. -/
  contextCreate : Bool
  seckeyVerify : FixedBytes 32 → Bool
  /-- The public key of a private key. -/
  pubkeyCreate : FixedBytes 32 → Option PubKey
  /-- A public key from its compressed or uncompressed serialisation. -/
  pubkeyParse : Bytes → Option PubKey
  serializeUncompressed : PubKey → FixedBytes 65
  serializeCompressed : PubKey → FixedBytes 33
  /-- A public key multiplied by a scalar. -/
  pubkeyTweakMul : PubKey → FixedBytes 32 → Option PubKey
  signatureParseCompact : FixedBytes 64 → Option Signature
  ecdsaVerify : Signature → FixedBytes 32 → PubKey → Bool
  /-- The signature of a 32-byte message under a private key. -/
  signRecoverable : FixedBytes 32 → FixedBytes 32 → Option RecoverableSignature
  /-- The compact form of a recoverable signature and its recovery id. -/
  recoverableSerializeCompact : RecoverableSignature → FixedBytes 64 × Fin 4

/-- The recovery id with the low bits of `n`. -/
def recoveryId (n : Nat) : Fin 4 := Fin.ofNat 4 n

namespace Secp256k1

variable (secp : Secp256k1)

/-- The serialisations of `P` carry their tags and are read back. -/
structure ReadBack (P : secp.PubKey) : Prop where
  tag : (secp.serializeUncompressed P).bytes.head? = some 4
  uncompressed : secp.pubkeyParse (secp.serializeUncompressed P).bytes = some P
  compressed : secp.pubkeyParse (secp.serializeCompressed P).bytes = some P
  compressed_ne_zero : secp.serializeCompressed P ≠ .zero _

/-- `P` verifies the signature that `key` makes of `msg`. -/
def Verifies (key msg : FixedBytes 32) (P : secp.PubKey) : Prop :=
  ∀ sig, secp.signRecoverable msg key = some sig →
    ∃ s, secp.signatureParseCompact (secp.recoverableSerializeCompact sig).1 = some s ∧
      secp.ecdsaVerify s msg P = true

/-- The Diffie-Hellman point of the pairs `(k, P)` and `(l, Q)` is one point. -/
def Agree (k : FixedBytes 32) (P : secp.PubKey) (l : FixedBytes 32) (Q : secp.PubKey) : Prop :=
  secp.pubkeyTweakMul Q k = secp.pubkeyTweakMul P l

end Secp256k1

end DevP2P.Lib
