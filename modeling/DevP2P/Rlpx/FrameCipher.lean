import DevP2P.Rlpx.FrameSecrets

/-!
# Frames (`rlpx/framing/frame_cipher.cpp`)

A frame is a 16-byte encrypted header, its MAC, the encrypted padded payload, its MAC. The two
directions of a session share no state: each has a keystream position and a MAC transcript.

* `HashMAC`, `AesCtrState`, `CipherHalf`, `FrameCipher` : the state;
* `encryptFrame`, `decryptHeader`, `decryptFrame`, `decryptFrameBody` : the operations;
* `frameLength_frameHeader` : the length field holds a size modulo `2 ^ 24`;
* `encryptFrame_run`, `decryptHeader_emit`, `openBody_emit` : a reader in the state the
  writer was in reads a frame back and ends in the state the writer ended in.
-/

namespace DevP2P.Rlpx
open DevP2P.Lib Stateful

abbrev kFrameHeaderSize : Nat := 16
abbrev kFrameHeaderWithMacSize : Nat := kFrameHeaderSize + kMacSize
abbrev kFramePaddingAlignment : Nat := kAesBlockSize
abbrev kFrameLengthMsbShift : Nat := 16
abbrev kFrameLengthMiddleShift : Nat := 8
abbrev kFrameLengthLsbShift : Nat := 0
abbrev kMaxFrameSizeMiB : Nat := 16
abbrev kMaxFrameSize : Nat := kMaxFrameSizeMiB * 1024 * 1024

abbrev FrameHeader := FixedBytes kFrameHeaderSize

inductive FramingError
  | kEncryptionFailed
  | kDecryptionFailed
  | kMacMismatch
  | kInvalidFrameSize
  | kBufferTooSmall
  | kInvalidHeader
  | kCompressionFailed
  | kDecompressionFailed
deriving DecidableEq

/-! ## Running state -/

/-- A MAC over everything written so far. -/
structure HashMAC where
  macKey : MacKey
  written : Bytes
deriving DecidableEq

/-- A counter-mode cipher: its key and the number of keystream bytes used. -/
structure AesCtrState where
  key : AesKey
  position : Nat
deriving DecidableEq

/-- One direction of a session: `enc` and `egress_mac`, or `dec` and `ingress_mac`. -/
structure CipherHalf where
  ctr : AesCtrState
  mac : HashMAC
deriving DecidableEq

structure FrameCipher where
  egress : CipherHalf
  ingress : CipherHalf
deriving DecidableEq

/-- The constructor: both ciphers at the start of the keystream, each MAC with its seed written. -/
def FrameCipher.new (secrets : FrameSecrets) : FrameCipher where
  egress := ⟨⟨secrets.aesSecret, 0⟩, ⟨secrets.macSecret, secrets.egressMacSeed⟩⟩
  ingress := ⟨⟨secrets.aesSecret, 0⟩, ⟨secrets.macSecret, secrets.ingressMacSeed⟩⟩

variable (env : RlpxPrimitives)

namespace HashMAC

def write (m : HashMAC) (data : Bytes) : HashMAC := { m with written := m.written ++ data }

def sum (m : HashMAC) : FixedBytes 32 := env.keccak256 m.written

def compute (m : HashMAC) (sum1 : FixedBytes 32) (seed16 : AesBlock) : MacDigest × HashMAC :=
  let aesBuf := (env.aes256Block m.macKey (.load _ sum1.bytes)).xor seed16
  let m := m.write aesBuf.bytes
  (.load _ (m.sum env).bytes, m)

def computeHeader (m : HashMAC) (headerCt : FrameHeader) : MacDigest × HashMAC :=
  m.compute env (m.sum env) headerCt

def computeFrame (m : HashMAC) (frameData : Bytes) : MacDigest × HashMAC :=
  let m := m.write frameData
  let seed := m.sum env
  m.compute env seed (.load _ seed.bytes)

end HashMAC

/-- Encryption and decryption: xor with the keystream from the current position on. -/
def AesCtrState.process (s : AesCtrState) (b : Bytes) : Bytes × AesCtrState :=
  (streamXor (env.aes256Ctr s.key) s.position b, { s with position := s.position + b.length })

/-! ## Writing frames -/

/-- The 16 bytes before encryption: a 3-byte length, the fixed bytes `C2 80 80`, zeros. -/
def frameHeader (fsize : Nat) : FrameHeader where
  bytes :=
    [UInt8.ofNat ((fsize >>> kFrameLengthMsbShift) &&& 0xFF),
      UInt8.ofNat ((fsize >>> kFrameLengthMiddleShift) &&& 0xFF),
      UInt8.ofNat ((fsize >>> kFrameLengthLsbShift) &&& 0xFF)] ++
    [0xC2, 0x80, 0x80] ++ List.replicate 10 0
  size_eq := rfl

/-- The zero bytes that fill the last block. -/
def framePadding (fsize : Nat) : Nat :=
  if fsize % kFramePaddingAlignment ≠ 0 then kFramePaddingAlignment - fsize % kFramePaddingAlignment
  else 0

def framePadded (data : Bytes) : Bytes := data ++ List.replicate (framePadding data.length) 0

namespace CipherHalf

def emitHeader (h : CipherHalf) (header : FrameHeader) : (FrameHeader × MacDigest) × CipherHalf :=
  let (headerCt, ctr) := h.ctr.process env header.bytes
  let headerCt : FrameHeader := .load _ headerCt
  let (headerMac, mac) := h.mac.computeHeader env headerCt
  ((headerCt, headerMac), ⟨ctr, mac⟩)

def emitBody (h : CipherHalf) (padded : Bytes) : (Bytes × MacDigest) × CipherHalf :=
  let (frameCt, ctr) := h.ctr.process env padded
  let (frameMac, mac) := h.mac.computeFrame env frameCt
  ((frameCt, frameMac), ⟨ctr, mac⟩)

/-- The frame of a payload: what `encrypt_frame` does after its size check. -/
def emitFrame (h : CipherHalf) (data : Bytes) : Bytes × CipherHalf :=
  let ((headerCt, headerMac), h) := h.emitHeader env (frameHeader data.length)
  let ((frameCt, frameMac), h) := h.emitBody env (framePadded data)
  (headerCt.bytes ++ headerMac.bytes ++ frameCt ++ frameMac.bytes, h)

end CipherHalf

abbrev CipherM := EStateM FramingError FrameCipher

def encryptFrame (frameData : Bytes) : CipherM Bytes := do
  rejectIf (frameData = [] ∨ kMaxFrameSize < frameData.length) .kInvalidFrameSize
  let cipher ← get
  let (out, egress) := cipher.egress.emitFrame env frameData
  set { cipher with egress }
  return out

/-! ## Reading frames -/

def frameLength (headerPt : Bytes) : Nat :=
  ((Bytes.at headerPt 0).toNat <<< kFrameLengthMsbShift) |||
    ((Bytes.at headerPt 1).toNat <<< kFrameLengthMiddleShift) |||
    ((Bytes.at headerPt 2).toNat <<< kFrameLengthLsbShift)

abbrev IngressM := EStateM FramingError CipherHalf

def onMac (f : HashMAC → MacDigest × HashMAC) : IngressM MacDigest := fun h =>
  .ok (f h.mac).1 { h with mac := (f h.mac).2 }

def decrypt (b : Bytes) : IngressM Bytes := fun h =>
  .ok (h.ctr.process env b).1 { h with ctr := (h.ctr.process env b).2 }

/-- The MAC of what was read is computed, and its bytes written, before it is compared. -/
def decryptHeader (headerCt : FrameHeader) (headerMacWire : MacDigest) : IngressM Nat := do
  let expectedMac ← onMac fun m => m.computeHeader env headerCt
  rejectIf (headerMacWire ≠ expectedMac) .kMacMismatch
  let headerPt ← decrypt env headerCt.bytes
  let fsize := frameLength headerPt
  rejectIf (fsize = 0 ∨ kMaxFrameSize < fsize) .kInvalidFrameSize
  return fsize

/-- The end of `decrypt_frame` and of `decrypt_frame_body`: check the MAC, decrypt, cut to size. -/
def openBody (fsize : Nat) (frameCt : Bytes) (frameMac : Bytes) : IngressM Bytes := do
  let frameMacExpected ← onMac fun m => m.computeFrame env frameCt
  rejectIf (frameMac.take kMacSize ≠ frameMacExpected.bytes) .kMacMismatch
  let framePt ← decrypt env frameCt
  return framePt.take fsize

structure FrameDecryptParams where
  headerCiphertext : Bytes
  headerMac : Bytes
  frameCiphertext : Bytes
  frameMac : Bytes

def decryptFrame (params : FrameDecryptParams) : IngressM Bytes := do
  rejectIf (params.headerCiphertext.length < kFrameHeaderSize ∨ params.headerMac.length < kMacSize ∨
    params.frameMac.length < kMacSize) .kInvalidFrameSize
  let fsize ← decryptHeader env (.load _ params.headerCiphertext) (.load _ params.headerMac)
  rejectIf (params.frameCiphertext.length < fsize) .kInvalidFrameSize
  openBody env fsize params.frameCiphertext params.frameMac

def decryptFrameBody (fsize : Nat) (frameCtPadded : Bytes) (frameMac : Bytes) : IngressM Bytes := do
  rejectIf (frameCtPadded.length < fsize ∨ frameMac.length < kMacSize) .kInvalidFrameSize
  openBody env fsize frameCtPadded frameMac

def FrameCipher.onIngress {α : Type} (x : IngressM α) : CipherM α :=
  Stateful.zoom FrameCipher.ingress (fun ingress cipher => { cipher with ingress }) x

/-! ## Reading what was written -/

theorem frameLength_frameHeader (n : Nat) : frameLength (frameHeader n).bytes = n % 2 ^ 24 := by
  have hbyte (k : Nat) : (UInt8.ofNat ((n >>> k) &&& 0xFF)).toNat = n / 2 ^ k % 256 := by
    rw [UInt8.toNat_ofNat', Nat.shiftRight_eq_div_pow, show 0xFF = 2 ^ 8 - 1 by rfl,
      Nat.and_two_pow_sub_one_eq_mod]
    omega
  show ((UInt8.ofNat ((n >>> 16) &&& 0xFF)).toNat <<< 16 |||
    (UInt8.ofNat ((n >>> 8) &&& 0xFF)).toNat <<< 8 |||
    (UInt8.ofNat ((n >>> 0) &&& 0xFF)).toNat <<< 0) = _
  rw [hbyte, hbyte, hbyte, Nat.or_assoc, Nat.shiftLeft_zero,
    ← Nat.shiftLeft_add_eq_or_of_lt (show n / 2 ^ 0 % 256 < 2 ^ 8 by omega),
    ← Nat.shiftLeft_add_eq_or_of_lt (by rw [Nat.shiftLeft_eq]; omega), Nat.shiftLeft_eq, Nat.shiftLeft_eq]
  omega

theorem length_framePadded (data : Bytes) :
    (framePadded data).length = data.length + framePadding data.length := by
  simp [framePadded]

theorem take_framePadded (data : Bytes) : (framePadded data).take data.length = data :=
  List.take_left

variable {env}

@[simp] theorem AesCtrState.process_process (s : AesCtrState) (b : Bytes) :
    s.process env (s.process env b).1 = (b, (s.process env b).2) := by
  simp [AesCtrState.process]

@[simp] theorem AesCtrState.length_process (s : AesCtrState) (b : Bytes) :
    (s.process env b).1.length = b.length := by
  simp [AesCtrState.process]

theorem onMac_apply (f : HashMAC → MacDigest × HashMAC) (h : CipherHalf) :
    onMac f h = .ok (f h.mac).1 ⟨h.ctr, (f h.mac).2⟩ := rfl

theorem decrypt_process (ctr : AesCtrState) (mac : HashMAC) (b : Bytes) :
    decrypt env (ctr.process env b).1 ⟨ctr, mac⟩ = .ok b ⟨(ctr.process env b).2, mac⟩ := by
  unfold decrypt
  rw [AesCtrState.process_process]

/-- A payload that `encrypt_frame` accepts. -/
def FrameSized (data : Bytes) : Prop := data ≠ [] ∧ data.length ≤ kMaxFrameSize

theorem encryptFrame_run {data : Bytes} (h : FrameSized data) (cipher : FrameCipher) :
    encryptFrame env data cipher =
      .ok (cipher.egress.emitFrame env data).1
        { cipher with egress := (cipher.egress.emitFrame env data).2 } := by
  unfold encryptFrame
  rw [rejectIf_bind_of_not]
  · rfl
  · intro hbad
    exact hbad.elim h.1 (Nat.not_lt.mpr h.2)

theorem encryptFrame_eq_ok_iff {data out : Bytes} {cipher cipher' : FrameCipher} :
    encryptFrame env data cipher = .ok out cipher' ↔
      FrameSized data ∧ out = (cipher.egress.emitFrame env data).1 ∧
        cipher' = { cipher with egress := (cipher.egress.emitFrame env data).2 } := by
  refine ⟨fun h => ?_, fun ⟨h, hout, hc⟩ => by rw [encryptFrame_run h, hout, hc]⟩
  have hsize : FrameSized data := by
    have := (rejectIf_bind_eq_ok.mp h).1
    exact ⟨fun he => this (Or.inl he), Nat.not_lt.mp fun hl => this (Or.inr hl)⟩
  rw [encryptFrame_run hsize, EStateM.Result.ok.injEq] at h
  exact ⟨hsize, h.1.symm, h.2.symm⟩

/-- The header of a frame, read in the state it was written in: the sizes from `1` to `2 ^ 24 - 1` come
back, the others are refused. -/
theorem decryptHeader_emit (h : CipherHalf) (n : Nat) :
    decryptHeader env (h.emitHeader env (frameHeader n)).1.1 (h.emitHeader env (frameHeader n)).1.2 h =
      if n % 2 ^ 24 = 0 then .error .kInvalidFrameSize (h.emitHeader env (frameHeader n)).2
      else .ok (n % 2 ^ 24) (h.emitHeader env (frameHeader n)).2 := by
  have hct : (h.emitHeader env (frameHeader n)).1.1.bytes = (h.ctr.process env (frameHeader n).bytes).1 :=
    FixedBytes.bytes_load_self (by simp)
  unfold decryptHeader
  rw [bind_of_ok (onMac_apply _ h), rejectIf_bind_of_not (by exact fun hne => hne rfl),
    hct, bind_of_ok (decrypt_process _ _ _)]
  simp only [frameLength_frameHeader]
  by_cases hn : n % 2 ^ 24 = 0
  · rw [if_pos hn, rejectIf_bind_of (Or.inl hn)]
    rfl
  · rw [if_neg hn, rejectIf_bind_of_not]
    · rfl
    · have := Nat.mod_lt n (show 2 ^ 24 > 0 by decide)
      rintro (h0 | h1)
      · exact hn h0
      · exact absurd h1 (by show ¬ 16 * 1024 * 1024 < _; omega)

theorem openBody_emit (h : CipherHalf) (fsize : Nat) (padded rest : Bytes) :
    openBody env fsize (h.emitBody env padded).1.1 ((h.emitBody env padded).1.2.bytes ++ rest) h =
      .ok (padded.take fsize) (h.emitBody env padded).2 := by
  have hct : (h.emitBody env padded).1.1 = (h.ctr.process env padded).1 := rfl
  unfold openBody
  rw [bind_of_ok (onMac_apply _ h), rejectIf_bind_of_not, hct,
    bind_of_ok (decrypt_process h.ctr _ padded)]
  · rfl
  · exact fun hne => hne (List.take_left' (FixedBytes.length_bytes _))

end DevP2P.Rlpx
