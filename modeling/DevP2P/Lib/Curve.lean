import DevP2P.Lib.BigEndian
import DevP2P.Lib.Secp256k1

/-!
# The curve, computed

An implementation of `Secp256k1` by arithmetic on `y² = x³ + 7`, to evaluate the models that take
the library as a parameter on concrete keys. The nonces of signatures are a parameter.

* `Curve.Jacobian.add`, `Curve.mul` : the group law; `Curve.parse`, `Curve.uncompressed`,
  `Curve.compressed`; `Curve.sign`, `Curve.verify`, `Curve.recover` : signatures;
* `Curve.library` : the implementation; `Curve.library_readBack`, `Curve.library_verifies` : its laws for one key and
  one message, from what the curve computes.
-/

namespace DevP2P.Lib.Curve

def fieldPrime : Nat := 2 ^ 256 - 2 ^ 32 - 977

def order : Nat := 0xFFFFFFFFFFFFFFFFFFFFFFFFFFFFFFFEBAAEDCE6AF48A03BBFD25E8CD0364141

/-- `b ^ e` modulo `m`, for exponents below `2 ^ fuel`. -/
def powMod (m : Nat) : Nat → Nat → Nat → Nat
  | 0, _, _ => 1
  | fuel + 1, b, e =>
    let r := powMod m fuel (b * b % m) (e / 2)
    if e % 2 = 1 then b * r % m else r

/-- The inverse modulo a prime `m`. -/
def inverse (m a : Nat) : Nat := powMod m 256 a (m - 2)

/-- A point other than the neutral element. -/
structure Point where
  x : Nat
  y : Nat
deriving DecidableEq

def generator : Point where
  x := 0x79BE667EF9DCBBAC55A06295CE870B07029BFCDB2DCE28D959F2815B16F81798
  y := 0x483ADA7726A3C4655DA4FBFC0E1108A8FD17B448A68554199C47D08FFB10D4B8

/-- The coordinates `(x / z², y / z³)`; `z = 0` is the neutral element. -/
structure Jacobian where
  x : Nat
  y : Nat
  z : Nat

def Jacobian.ofPoint (P : Point) : Jacobian := ⟨P.x, P.y, 1⟩

def Jacobian.toPoint (P : Jacobian) : Option Point :=
  if P.z = 0 then none
  else
    let w := inverse fieldPrime P.z
    some ⟨P.x * w * w % fieldPrime, P.y * w * w * w % fieldPrime⟩

def sub (a b : Nat) : Nat := (a + fieldPrime - b % fieldPrime) % fieldPrime

def Jacobian.double (P : Jacobian) : Jacobian :=
  let yy := P.y * P.y % fieldPrime
  let s := 4 * P.x * yy % fieldPrime
  let m := 3 * P.x * P.x % fieldPrime
  let x := sub (m * m) (2 * s)
  ⟨x, sub (m * sub s x) (8 * yy * yy), 2 * P.y * P.z % fieldPrime⟩

def Jacobian.add (P Q : Jacobian) : Jacobian :=
  if P.z = 0 then Q
  else if Q.z = 0 then P
  else
    let pz := P.z * P.z % fieldPrime
    let qz := Q.z * Q.z % fieldPrime
    let u := P.x * qz % fieldPrime
    let s := P.y * qz * Q.z % fieldPrime
    let h := sub (Q.x * pz) u
    let r := sub (Q.y * pz * P.z) s
    if h = 0 then if r = 0 then P.double else ⟨1, 1, 0⟩
    else
      let hh := h * h % fieldPrime
      let v := u * hh % fieldPrime
      let x := sub (r * r) (h * hh + 2 * v)
      ⟨x, sub (r * sub v x) (s * h * hh), P.z * Q.z * h % fieldPrime⟩

/-- `k` times a point, for `k` below `2 ^ fuel`. -/
def Jacobian.mul : Nat → Nat → Jacobian → Jacobian
  | 0, _, _ => ⟨1, 1, 0⟩
  | fuel + 1, k, P =>
    if k = 0 then ⟨1, 1, 0⟩
    else
      let R := Jacobian.mul fuel (k / 2) P.double
      if k % 2 = 1 then P.add R else R

def mul (k : Nat) (P : Point) : Option Point := (Jacobian.mul 256 k (.ofPoint P)).toPoint

def onCurve (P : Point) : Bool :=
  P.x < fieldPrime ∧ P.y < fieldPrime ∧ P.y * P.y % fieldPrime = (P.x ^ 3 + 7) % fieldPrime

/-- The point with first coordinate `x` whose second one has the parity of `sign`. -/
def lift (x sign : Nat) : Point :=
  let y := powMod fieldPrime 256 (x ^ 3 + 7) ((fieldPrime + 1) / 4)
  if y % 2 = sign % 2 then ⟨x, y⟩ else ⟨x, fieldPrime - y⟩

def parse : Bytes → Option Point
  | [] => none
  | tag :: b =>
    let P : Option Point :=
      if b.length = 64 ∧ tag = 4 then some ⟨beLoad (b.take 32), beLoad (b.drop 32)⟩
      else if b.length = 32 ∧ (tag = 2 ∨ tag = 3) then some (lift (beLoad b) tag.toNat)
      else none
    P.filter onCurve

def uncompressed (P : Point) : FixedBytes 65 where
  bytes := 4 :: (beStore 32 P.x ++ beStore 32 P.y)
  size_eq := by simp

def compressed (P : Point) : FixedBytes 33 where
  bytes := (if P.y % 2 = 0 then 2 else 3) :: beStore 32 P.x
  size_eq := by simp

def scalar (k : FixedBytes 32) : Nat := beLoad k.bytes

/-- The signature `(r, s)` of a message with scalar `z` under the key `d`, with the nonce `e`. -/
def sign (e z d : Nat) : Option (Nat × Nat × Fin 4) :=
  (mul e generator).map fun R =>
    let r := R.x % order
    let s := (z + r * d) * inverse order e % order
    if s ≤ order / 2 then (r, s, recoveryId (R.y % 2)) else (r, order - s, recoveryId ((R.y + 1) % 2))

def verify (r s z : Nat) (Q : Point) : Bool :=
  let w := inverse order s
  let R := (Jacobian.mul 256 (z * w % order) (.ofPoint generator)).add
    (Jacobian.mul 256 (r * w % order) (.ofPoint Q))
  match R.toPoint with
  | none => false
  | some R => 0 < r ∧ 0 < s ∧ s ≤ order / 2 ∧ R.x % order = r

/-- The key that has signed a message with scalar `z`, the second coordinate of the nonce's point having the parity of
`sign`. -/
def recover (r s sign z : Nat) : Option Point :=
  let w := inverse order r
  let R := lift r sign
  if onCurve R then
    ((Jacobian.mul 256 (s * w % order) (.ofPoint R)).add
      (Jacobian.mul 256 ((order - z % order) * w % order) (.ofPoint generator))).toPoint
  else none

/-- The library, with the nonces `nonce message key`. -/
def library (nonce : FixedBytes 32 → FixedBytes 32 → Nat) : Secp256k1 where
  PubKey := Point
  Signature := Nat × Nat
  RecoverableSignature := Nat × Nat × Fin 4
  contextCreate := true
  seckeyVerify k := 0 < scalar k ∧ scalar k < order
  pubkeyCreate k := mul (scalar k) generator
  pubkeyParse := parse
  serializeUncompressed := uncompressed
  serializeCompressed := compressed
  pubkeyTweakMul P k := mul (scalar k) P
  signatureParseCompact sig :=
    let r := beLoad (sig.bytes.take 32)
    let s := beLoad (sig.bytes.drop 32)
    if r < order ∧ s < order then some (r, s) else none
  ecdsaVerify sig message P := verify sig.1 sig.2 (beLoad message.bytes) P
  signRecoverable message k := sign (nonce message k) (beLoad message.bytes) (scalar k)
  recoverableSerializeCompact sig := (⟨beStore 32 sig.1 ++ beStore 32 sig.2.1, by simp⟩, sig.2.2)

section

variable {nonce : FixedBytes 32 → FixedBytes 32 → Nat} {P : Point}

theorem head_compressed (P : Point) : (compressed P).bytes.head? = some (if P.y % 2 = 0 then 2 else 3) := rfl

theorem compressed_ne_zero (P : Point) : compressed P ≠ .zero _ := by
  intro h
  have htag := head_compressed P
  rw [h] at htag
  split_ifs at htag <;> exact absurd htag (by decide)

theorem library_pubkeyParse : (library nonce).pubkeyParse = parse := rfl

theorem library_ecdsaVerify : (library nonce).ecdsaVerify = fun sig message P =>
    verify sig.1 sig.2 (beLoad message.bytes) P := by
  simp only [library]

theorem library_signRecoverable : (library nonce).signRecoverable = fun message k =>
    sign (nonce message k) (beLoad message.bytes) (scalar k) := by
  simp only [library]

theorem library_pubkeyCreate : (library nonce).pubkeyCreate = fun k => mul (scalar k) generator := by
  simp only [library]

theorem library_pubkeyTweakMul : (library nonce).pubkeyTweakMul = fun P k => mul (scalar k) P := by
  simp only [library]

theorem library_readBack (huncompressed : parse (uncompressed P).bytes = some P)
    (hcompressed : parse (compressed P).bytes = some P) : (library nonce).ReadBack P := by
  refine ⟨rfl, ?_, ?_, compressed_ne_zero P⟩
  · rw [library_pubkeyParse]
    exact huncompressed
  · rw [library_pubkeyParse]
    exact hcompressed

theorem library_parse_compact {r s : Nat} (recovery : Fin 4) (hr : r < order) (hs : s < order) :
    (library nonce).signatureParseCompact ((library nonce).recoverableSerializeCompact (r, s, recovery)).1 =
      some (r, s) := by
  have horder : order ≤ 256 ^ 32 := by norm_num [order]
  simp only [library]
  rw [List.take_left' (length_beStore 32 r), List.drop_left' (length_beStore 32 r),
    beLoad_beStore_of_lt (lt_of_lt_of_le hr horder), beLoad_beStore_of_lt (lt_of_lt_of_le hs horder),
    if_pos ⟨hr, hs⟩]

theorem library_verifies {key message : FixedBytes 32} {r s : Nat} {recovery : Fin 4}
    (hsign : sign (nonce message key) (beLoad message.bytes) (scalar key) = some (r, s, recovery))
    (hr : r < order) (hs : s < order) (hverify : verify r s (beLoad message.bytes) P = true) :
    (library nonce).Verifies key message P := by
  intro sig hsig
  rw [library_signRecoverable] at hsig
  obtain rfl := Option.some.inj (hsign.symm.trans hsig)
  refine ⟨(r, s), library_parse_compact recovery hr hs, ?_⟩
  rw [library_ecdsaVerify]
  exact hverify

end

end DevP2P.Lib.Curve
