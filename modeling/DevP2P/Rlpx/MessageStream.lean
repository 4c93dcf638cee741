import DevP2P.Rlp.Integral
import DevP2P.Rlpx.FrameTransport
import DevP2P.Rlpx.Transport

/-!
# Messages over frames (`rlpx/framing/message_stream.cpp`)

* `messageData` : the bytes of a message, its id as an RLP integer and its payload;
* `sendMessage` : the size check, the frame, the write;
* `accepted_frame_read_back_iff` : of the sizes that the sender accepts, exactly `2 ^ 24` cannot be
  read back: the length field holds `0`.
-/

namespace DevP2P.Rlpx
open DevP2P.Lib DevP2P.Rlp Stateful

structure Snappy where
  compress : Bytes → Bytes

structure MessageStream where
  cipher : FrameCipher
  transport : SocketTransport
  compressionEnabled : Bool

structure MessageSendParams where
  messageId : UIntTy.Val .uint8
  payload : Bytes

abbrev StreamM := EStateM SessionError MessageStream

def MessageStream.onCipher {α : Type} (x : EStateM SessionError FrameCipher α) : StreamM α :=
  Stateful.zoom MessageStream.cipher (fun cipher s => { s with cipher }) x

def MessageStream.onTransport {α : Type} (x : TransportM α) : StreamM α :=
  Stateful.zoom MessageStream.transport (fun transport s => { s with transport }) x

/-- The message id as an RLP integer. -/
def encodeMessageId (messageId : UIntTy.Val .uint8) : EncodeM Bytes := do
  addUInt messageId
  getBytes

variable (env : RlpxPrimitives) (snappy : Snappy)

/-- The payload as it is sent; an empty one is not compressed. -/
def payloadBytes (compressionEnabled : Bool) (payload : Bytes) : Bytes :=
  if payload ≠ [] then
    if compressionEnabled then snappy.compress payload else payload
  else []

def sendMessage (params : MessageSendParams) : StreamM Unit := do
  let idBytes ← Stateful.lift
    (Stateful.outcome (withError .kInvalidMessage (encodeMessageId params.messageId) .new))
  let stream ← get
  let messageData := idBytes ++ payloadBytes snappy stream.compressionEnabled params.payload
  rejectIf (kMaxFrameSize < messageData.length) .kInvalidMessage
  let encryptedFrame ← MessageStream.onCipher
    (withError .kEncryptionError (encryptFrame env messageData))
  MessageStream.onTransport (writeAll encryptedFrame)

def messageData (compressionEnabled : Bool) (params : MessageSendParams) : Bytes :=
  encodeString (toBigCompact params.messageId) ++ payloadBytes snappy compressionEnabled params.payload

variable {env snappy}

theorem encodeMessageId_run (messageId : UIntTy.Val .uint8) :
    encodeMessageId messageId .new =
      .ok (encodeString (toBigCompact messageId)) ⟨encodeString (toBigCompact messageId), []⟩ := by
  unfold encodeMessageId RlpEncoder.new
  rw [bind_of_ok (addUInt_run messageId [] []), List.nil_append, getBytes_run]

theorem messageData_ne_nil (compressionEnabled : Bool) (params : MessageSendParams) :
    messageData snappy compressionEnabled params ≠ [] := by
  have := length_encodeString_pos (toBigCompact params.messageId)
  unfold messageData
  intro h
  rw [(List.append_eq_nil_iff.mp h).1] at this
  exact absurd this (lt_irrefl 0)

theorem lift_encodeMessageId (id : UIntTy.Val .uint8) (s : MessageStream) :
    Stateful.lift (Stateful.outcome (withError SessionError.kInvalidMessage (encodeMessageId id) .new)) s =
      .ok (encodeString (toBigCompact id)) s := by
  unfold withError
  rw [encodeMessageId_run]
  rfl

theorem sendMessage_run {params : MessageSendParams} {s : MessageStream}
    (hs : (messageData snappy s.compressionEnabled params).length ≤ kMaxFrameSize) :
    sendMessage env snappy params s =
      MessageStream.onTransport
        (writeAll (s.cipher.egress.emitFrame env (messageData snappy s.compressionEnabled params)).1)
        { s with cipher := { s.cipher with egress :=
            (s.cipher.egress.emitFrame env (messageData snappy s.compressionEnabled params)).2 } } := by
  have hframe : MessageStream.onCipher (withError .kEncryptionError
      (encryptFrame env (messageData snappy s.compressionEnabled params))) s = .ok _ _ :=
    zoom_of_ok (withError_eq_ok.mpr
      (encryptFrame_run ⟨messageData_ne_nil s.compressionEnabled params, hs⟩ s.cipher))
  unfold sendMessage
  rw [bind_of_ok (lift_encodeMessageId _ s), get_bind]
  exact (rejectIf_bind_of_not (Nat.not_lt.mpr hs) _ _ _).trans (bind_of_ok hframe _)

/-- A receiver in the state `h` reads the header of the frame `out` as that of `n` bytes. -/
def ReadsLength (env : RlpxPrimitives) (h : CipherHalf) (out : Bytes) (n : Nat) : Prop :=
  ∃ h', decryptHeader env (.load _ out) (.load _ (out.drop kFrameHeaderSize)) h = .ok n h'

theorem decryptHeader_emitFrame (h : CipherHalf) (data : Bytes) :
    decryptHeader env (.load _ (h.emitFrame env data).1)
        (.load _ ((h.emitFrame env data).1.drop kFrameHeaderSize)) h =
      if data.length % 2 ^ 24 = 0 then
        .error .kInvalidFrameSize (h.emitHeader env (frameHeader data.length)).2
      else .ok (data.length % 2 ^ 24) (h.emitHeader env (frameHeader data.length)).2 := by
  obtain ⟨-, -, hdrop, -⟩ := frame_pieces _ _ _ _ (@emitFrame_fst env h data)
  rw [hdrop, FixedBytes.load_append, emitFrame_fst, List.append_assoc, List.append_assoc,
    FixedBytes.load_append]
  exact decryptHeader_emit h data.length

theorem readsLength_emitFrame_iff {data : Bytes} (hs : FrameSized data) (h : CipherHalf) :
    ReadsLength env h (h.emitFrame env data).1 data.length ↔ data.length ≠ 2 ^ 24 := by
  have hpos : 0 < data.length := List.length_pos_iff.mpr hs.1
  have hmax : data.length ≤ 2 ^ 24 := hs.2
  unfold ReadsLength
  rw [decryptHeader_emitFrame]
  refine ⟨fun ⟨h', hread⟩ heq => ?_, fun hne => ?_⟩
  · rw [heq, Nat.mod_self, if_pos rfl] at hread
    exact nomatch hread
  · have hmod : data.length % 2 ^ 24 = data.length := Nat.mod_eq_of_lt (lt_of_le_of_ne hmax hne)
    rw [hmod, if_neg (Nat.ne_of_gt hpos)]
    exact ⟨_, rfl⟩

/-- **A frame that the sender accepts is read back, except at the largest size.** For the payloads that
`encrypt_frame` accepts and for the messages that pass the size check of `send_message`, a receiver in step
reads the length that was written if and only if it is not `2 ^ 24`. -/
theorem accepted_frame_read_back_iff (env : RlpxPrimitives) (snappy : Snappy) (receiver : CipherHalf) :
    (∀ (data out : Bytes) (sender sender' : FrameCipher), sender.egress = receiver →
      encryptFrame env data sender = .ok out sender' →
      (ReadsLength env receiver out data.length ↔ data.length ≠ 2 ^ 24)) ∧
    (∀ (params : MessageSendParams) (s : MessageStream), s.cipher.egress = receiver →
      (messageData snappy s.compressionEnabled params).length ≤ kMaxFrameSize →
      ∃ out cipher,
        sendMessage env snappy params s = MessageStream.onTransport (writeAll out) { s with cipher } ∧
        (ReadsLength env receiver out (messageData snappy s.compressionEnabled params).length ↔
          (messageData snappy s.compressionEnabled params).length ≠ 2 ^ 24)) := by
  refine ⟨fun data out sender sender' hstep hsend => ?_, fun params s hstep hs => ?_⟩
  · obtain ⟨hsize, rfl, -⟩ := encryptFrame_eq_ok_iff.mp hsend
    rw [← hstep]
    exact readsLength_emitFrame_iff hsize _
  · refine ⟨_, _, sendMessage_run hs, ?_⟩
    rw [← hstep]
    exact readsLength_emitFrame_iff ⟨messageData_ne_nil s.compressionEnabled params, hs⟩ _

/-- Secrets with the same seed for both directions: such a cipher reads its own frames. -/
def sampleSecrets : FrameSecrets := ⟨.load _ [1, 2], .load _ [3, 4], [5, 6], [5, 6]⟩

/-- Snappy that finds nothing to copy: the length as a varint (in one byte, or in all five), then the string as one
literal (its length in the tag, or in four bytes after it). -/
def sampleSnappy : Snappy where
  compress p :=
    let n := p.length
    if p = [] then [0]
    else if n ≤ 60 then n.toUInt8 :: (4 * (n - 1)).toUInt8 :: p
    else
      [n % 128 + 128, n / 2 ^ 7 % 128 + 128, n / 2 ^ 14 % 128 + 128, n / 2 ^ 21 % 128 + 128, n / 2 ^ 28,
        63 * 4, n - 1, (n - 1) / 2 ^ 8, (n - 1) / 2 ^ 16, (n - 1) / 2 ^ 24].map Nat.toUInt8 ++ p

def sampleStream : MessageStream where
  cipher := .new sampleSecrets
  transport := ⟨[], .eof, [], none, .brokenPipe⟩
  compressionEnabled := false

theorem small_frames_read_back :
    (∀ out cipher, encryptFrame sampleEnv [1, 2, 3] (.new sampleSecrets) = .ok out cipher →
      (ReadsLength sampleEnv (FrameCipher.new sampleSecrets).ingress out 3 ↔ 3 ≠ 2 ^ 24)) ∧
    ∃ out cipher, sendMessage sampleEnv sampleSnappy ⟨16, [1, 2, 3]⟩ sampleStream =
        MessageStream.onTransport (writeAll out) { sampleStream with cipher } ∧
      (ReadsLength sampleEnv (FrameCipher.new sampleSecrets).ingress out 4 ↔ 4 ≠ 2 ^ 24) := by
  have h := accepted_frame_read_back_iff sampleEnv sampleSnappy (FrameCipher.new sampleSecrets).ingress
  exact ⟨fun out cipher => h.1 [1, 2, 3] out (.new sampleSecrets) cipher rfl,
    h.2 ⟨16, [1, 2, 3]⟩ sampleStream rfl (by decide)⟩

/-- **A payload of `2 ^ 24` bytes is encrypted, and its header is refused.** A message of this size passes the
check of `send_message`. -/
theorem largest_frame_refused :
    (∃ out cipher h', encryptFrame sampleEnv (List.replicate (2 ^ 24) 0) (.new sampleSecrets) = .ok out cipher ∧
      decryptHeader sampleEnv (.load _ out) (.load _ (out.drop kFrameHeaderSize))
        (FrameCipher.new sampleSecrets).ingress = .error .kInvalidFrameSize h') ∧
    (messageData sampleSnappy false ⟨16, List.replicate (2 ^ 24 - 1) 0⟩).length = 2 ^ 24 ∧
    2 ^ 24 ≤ kMaxFrameSize := by
  have hne {n : Nat} (hn : 0 < n) : List.replicate n (0 : UInt8) ≠ [] :=
    List.ne_nil_of_length_pos (by rwa [List.length_replicate])
  have hsize : FrameSized (List.replicate (2 ^ 24) 0) := ⟨hne (by decide), Nat.le_of_eq List.length_replicate⟩
  have hread := @decryptHeader_emitFrame sampleEnv (FrameCipher.new sampleSecrets).egress
    (List.replicate (2 ^ 24) 0)
  rw [List.length_replicate, Nat.mod_self, if_pos rfl] at hread
  refine ⟨⟨_, _, _, encryptFrame_run hsize _, hread⟩, ?_, Nat.le_refl _⟩
  have hpayload : payloadBytes sampleSnappy false (List.replicate (2 ^ 24 - 1) 0) =
      List.replicate (2 ^ 24 - 1) 0 := by
    unfold payloadBytes
    rw [if_pos (hne (by decide)), if_neg Bool.false_ne_true]
  unfold messageData
  rw [hpayload, List.length_append, List.length_replicate]
  rfl

end DevP2P.Rlpx
