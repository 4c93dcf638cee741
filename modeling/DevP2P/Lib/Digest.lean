import DevP2P.Lib.BigEndian

/-!
# Hash functions, computed

SHA-256, HMAC-SHA256 and Keccak-256 on byte strings, to evaluate the models that take them as parameters on
concrete inputs.
-/

namespace DevP2P.Lib

/-- The string in pieces of `n` bytes, at most `fuel` of them. -/
def blocks (n : Nat) : Nat → Bytes → List Bytes
  | 0, _ => []
  | fuel + 1, b => if b = [] then [] else b.take n :: blocks n fuel (b.drop n)

/-! ## SHA-256 -/

namespace Sha256

def rotr (x n : Nat) : Nat := (x >>> n ||| x <<< (32 - n)) % 2 ^ 32

def roundConstants : List Nat :=
  [0x428a2f98, 0x71374491, 0xb5c0fbcf, 0xe9b5dba5, 0x3956c25b, 0x59f111f1, 0x923f82a4, 0xab1c5ed5,
    0xd807aa98, 0x12835b01, 0x243185be, 0x550c7dc3, 0x72be5d74, 0x80deb1fe, 0x9bdc06a7, 0xc19bf174,
    0xe49b69c1, 0xefbe4786, 0x0fc19dc6, 0x240ca1cc, 0x2de92c6f, 0x4a7484aa, 0x5cb0a9dc, 0x76f988da,
    0x983e5152, 0xa831c66d, 0xb00327c8, 0xbf597fc7, 0xc6e00bf3, 0xd5a79147, 0x06ca6351, 0x14292967,
    0x27b70a85, 0x2e1b2138, 0x4d2c6dfc, 0x53380d13, 0x650a7354, 0x766a0abb, 0x81c2c92e, 0x92722c85,
    0xa2bfe8a1, 0xa81a664b, 0xc24b8b70, 0xc76c51a3, 0xd192e819, 0xd6990624, 0xf40e3585, 0x106aa070,
    0x19a4c116, 0x1e376c08, 0x2748774c, 0x34b0bcb5, 0x391c0cb3, 0x4ed8aa4a, 0x5b9cca4f, 0x682e6ff3,
    0x748f82ee, 0x78a5636f, 0x84c87814, 0x8cc70208, 0x90befffa, 0xa4506ceb, 0xbef9a3f7, 0xc67178f2]

def initialState : List Nat :=
  [0x6a09e667, 0xbb67ae85, 0x3c6ef372, 0xa54ff53a, 0x510e527f, 0x9b05688c, 0x1f83d9ab, 0x5be0cd19]

/-- The message schedule from its last sixteen words on, newest word first. -/
def schedule : Nat → List Nat → List Nat
  | 0, ws => ws
  | n + 1, ws =>
    let w (i : Nat) := ws.getD (i - 1) 0
    let s0 := rotr (w 15) 7 ^^^ rotr (w 15) 18 ^^^ (w 15 >>> 3)
    let s1 := rotr (w 2) 17 ^^^ rotr (w 2) 19 ^^^ (w 2 >>> 10)
    schedule n ((w 16 + s0 + w 7 + s1) % 2 ^ 32 :: ws)

def round (state : List Nat) (kw : Nat × Nat) : List Nat :=
  match state with
  | [a, b, c, d, e, f, g, h] =>
    let s1 := rotr e 6 ^^^ rotr e 11 ^^^ rotr e 25
    let ch := (e &&& f) ^^^ ((2 ^ 32 - 1 - e) &&& g)
    let t1 := h + s1 + ch + kw.1 + kw.2
    let s0 := rotr a 2 ^^^ rotr a 13 ^^^ rotr a 22
    let maj := (a &&& b) ^^^ (a &&& c) ^^^ (b &&& c)
    [(t1 + s0 + maj) % 2 ^ 32, a, b, c, (d + t1) % 2 ^ 32, e, f, g]
  | _ => state

def compress (state : List Nat) (block : Bytes) : List Nat :=
  let words := (blocks 4 16 block).map beLoad
  let ws := (schedule 48 words.reverse).reverse
  List.zipWith (fun x y => (x + y) % 2 ^ 32) state ((roundConstants.zip ws).foldl round state)

def pad (b : Bytes) : Bytes :=
  b ++ 0x80 :: List.replicate ((119 - b.length % 64) % 64) 0 ++ beStore 8 (8 * b.length)

end Sha256

def sha256 (b : Bytes) : FixedBytes 32 :=
  let padded := Sha256.pad b
  .load _ (((blocks 64 (padded.length / 64) padded).foldl Sha256.compress Sha256.initialState).flatMap (beStore 4))

def hmacSha256 (key b : Bytes) : FixedBytes 32 :=
  let key := if key.length ≤ 64 then key else (sha256 key).bytes
  let key := key ++ List.replicate (64 - key.length) 0
  sha256 (key.map (· ^^^ 0x5c) ++ (sha256 (key.map (· ^^^ 0x36) ++ b)).bytes)

/-! ## Keccak-256 -/

namespace Keccak

def rotl (x n : Nat) : Nat := (x <<< n ||| x >>> (64 - n)) % 2 ^ 64

def roundConstants : List Nat :=
  [0x1, 0x8082, 0x800000000000808A, 0x8000000080008000, 0x808B, 0x80000001, 0x8000000080008081,
    0x8000000000008009, 0x8A, 0x88, 0x80008009, 0x8000000A, 0x8000808B, 0x800000000000008B,
    0x8000000000008089, 0x8000000000008003, 0x8000000000008002, 0x8000000000000080, 0x800A,
    0x800000008000000A, 0x8000000080008081, 0x8000000000008080, 0x80000001, 0x8000000080008008]

/-- The rotation of lane `x + 5 y`. -/
def rotations : List Nat :=
  [0, 1, 62, 28, 27, 36, 44, 6, 55, 20, 3, 10, 43, 25, 39, 41, 45, 15, 21, 8, 18, 2, 61, 56, 14]

/-- One round on the lanes, lane `x + 5 y` at place `x + 5 y`. -/
def round (a : List Nat) (rc : Nat) : List Nat :=
  let c := (List.range 5).map fun x =>
    a.getD x 0 ^^^ a.getD (x + 5) 0 ^^^ a.getD (x + 10) 0 ^^^ a.getD (x + 15) 0 ^^^ a.getD (x + 20) 0
  let d := (List.range 5).map fun x => c.getD ((x + 4) % 5) 0 ^^^ rotl (c.getD ((x + 1) % 5) 0) 1
  let t := (List.range 25).map fun i => rotl (a.getD i 0 ^^^ d.getD (i % 5) 0) (rotations.getD i 0)
  -- lane `(x, y)` of the permuted state comes from lane `(x + 3 y, x)`
  let b := (List.range 25).map fun i => t.getD ((i % 5 + 3 * (i / 5)) % 5 + 5 * (i % 5)) 0
  let e := (List.range 25).map fun i =>
    let row := 5 * (i / 5)
    b.getD i 0 ^^^ ((2 ^ 64 - 1 - b.getD (row + (i + 1) % 5) 0) &&& b.getD (row + (i + 2) % 5) 0)
  (e.getD 0 0 ^^^ rc) :: e.drop 1

def absorb (a : List Nat) (block : Bytes) : List Nat :=
  let lanes := (blocks 8 17 block).map fun b => beLoad b.reverse
  roundConstants.foldl round (List.zipWith (· ^^^ ·) a (lanes ++ List.replicate 8 0))

def pad (b : Bytes) : Bytes :=
  let n := 136 - b.length % 136
  if n = 1 then b ++ [0x81] else b ++ 0x01 :: List.replicate (n - 2) 0 ++ [0x80]

end Keccak

def keccak256 (b : Bytes) : FixedBytes 32 :=
  let padded := Keccak.pad b
  let state := (blocks 136 (padded.length / 136) padded).foldl Keccak.absorb (List.replicate 25 0)
  .load _ (state.flatMap fun lane => (beStore 8 lane).reverse)

end DevP2P.Lib
