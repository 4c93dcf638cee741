import DevP2P.Lib.Runs
import DevP2P.Rlp.Reads
import DevP2P.Rlpx.MessageStream

/-!
# Received messages (`rlpx/framing/message_stream.cpp`)

* `receiveFrame` : the next frame; every failure leaves an empty one;
* `openMessage`, `receiveMessage` : the message in a frame;
* `receiveFrame_emit`, `openMessage_messageData`, `receiveMessage_emit` : a message read in the state it was sent in;
* `message_stream_round_trip` : whole runs of two streams that enable compression at the same message;
* `message_id_exact_iff` : the id of a message is the integer in front of its frame exactly when that integer fits.
-/

namespace DevP2P.Rlpx
open DevP2P.Lib DevP2P.Rlp Stateful

/-- The compression library in both directions: a compressed string starts with the length of what it holds (32 bits),
uncompressing undoes compressing, and no tag of the format stands for more than 64 bytes a byte. -/
structure SnappyCodec extends Snappy where
  /-- `snappy::GetUncompressedLength`. -/
  getUncompressedLength : Bytes → Option Nat
  /-- What `snappy::RawUncompress` writes. -/
  rawUncompress : Bytes → Option Bytes
  getUncompressedLength_nil : getUncompressedLength [] = none
  length_le_compress : ∀ p, p.length ≤ 64 * (compress p).length
  getUncompressedLength_compress : ∀ p, p.length < 2 ^ 32 → getUncompressedLength (compress p) = some p.length
  rawUncompress_compress : ∀ p, p.length < 2 ^ 32 → rawUncompress (compress p) = some p

structure Message where
  id : UIntTy.Val .uint8
  payload : Bytes
deriving DecidableEq

variable (env : RlpxPrimitives) (codec : SnappyCodec)

def MessageStream.onIngress {α : Type} (x : IngressM α) : StreamM α :=
  MessageStream.onCipher (withError .kInvalidMessage (FrameCipher.onIngress x))

/-- The steps of `receive_frame`. -/
def readFrame : StreamM Bytes := do
  let headerData ← MessageStream.onTransport (readExact kFrameHeaderWithMacSize)
  let frameSize ← MessageStream.onIngress
    (decryptHeader env (.load _ headerData) (.load _ (headerData.drop kFrameHeaderSize)))
  let paddedSize := frameSize + framePadding frameSize
  let frameData ← MessageStream.onTransport (readExact (paddedSize + kMacSize))
  MessageStream.onIngress
    (decryptFrameBody env frameSize (frameData.take paddedSize) ((frameData.drop paddedSize).take kMacSize))

/-- `MessageStream::receive_frame`: an empty frame stands for every failure. -/
def receiveFrame : StreamM Bytes := fun s =>
  match readFrame env s with
  | .ok frame t => .ok frame t
  | .error _ t => .ok [] t

def openPayload (compressionEnabled : Bool) (remaining : ByteView) : Except SessionError Bytes :=
  if compressionEnabled ∧ remaining ≠ [] then do
    let uncompressedLen ← Outcome.unwrap (codec.getUncompressedLength remaining) .kInvalidMessage
    let written ← Outcome.unwrap (codec.rawUncompress remaining) .kInvalidMessage
    -- the output is written over a buffer of the announced length
    return (FixedBytes.load uncompressedLen written).bytes
  else return remaining

/-- The message in a frame: the id is read as a 64-bit integer and stored in 8 bits. -/
def openMessage (compressionEnabled : Bool) (frameData : Bytes) : Except SessionError Message :=
  match readUInt .uint64 ⟨frameData⟩ with
  | .error _ _ => .error .kInvalidMessage
  | .ok msgId d => do
    let payload ← openPayload codec compressionEnabled d.remaining
    return ⟨msgId.setWidth _, payload⟩

/-- `MessageStream::receive_message`. -/
def receiveMessage : StreamM Message := do
  let frame ← receiveFrame env
  rejectIf (frame = []) .kInvalidMessage
  let stream ← get
  Stateful.lift (openMessage codec stream.compressionEnabled frame)

/-- `MessageStream::enable_compression`. -/
def enableCompression : StreamM Unit := modify fun s => { s with compressionEnabled := true }

variable {env codec}

/-! ## One frame -/

/-- The stream after a frame: the reading half of the cipher and what the peer sends have moved on. -/
def MessageStream.advance (s : MessageStream) (ingress : CipherHalf) (incoming : Bytes) : MessageStream :=
  { s with
    cipher := { s.cipher with ingress := ingress }
    transport := { s.transport with incoming := incoming } }

theorem onTransport_readExact {s : MessageStream} {b rest : Bytes} {n : Nat} (hb : b.length = n)
    (hin : s.transport.incoming = b ++ rest) :
    MessageStream.onTransport (readExact n) s = .ok b (s.advance s.cipher.ingress rest) := by
  have hread : readExact n s.transport = .ok b { s.transport with incoming := rest } :=
    readExact_eq_ok_iff.mpr ⟨hb, hin, rfl⟩
  exact zoom_of_ok hread

theorem onIngress_run {α : Type} {x : IngressM α} {a : α} {h h' : CipherHalf} (hx : x h = .ok a h')
    (s : MessageStream) (b : Bytes) : MessageStream.onIngress x (s.advance h b) = .ok a (s.advance h' b) := by
  have hcipher : FrameCipher.onIngress x (s.advance h b).cipher = .ok a (s.advance h' b).cipher :=
    zoom_of_ok hx
  unfold MessageStream.onIngress MessageStream.onCipher
  rw [zoom_of_ok (withError_eq_ok.mpr hcipher)]
  rfl

theorem receiveFrame_emit {data : Bytes} (hs : SizeFits data) {s : MessageStream} {rest : Bytes}
    (hin : s.transport.incoming = (s.cipher.ingress.emitFrame env data).1 ++ rest) :
    receiveFrame env s = .ok data (s.advance (s.cipher.ingress.emitFrame env data).2 rest) := by
  -- the pieces of the frame on the wire
  set h := s.cipher.ingress with hh
  set header := h.emitHeader env (frameHeader data.length) with hheader
  set body := header.2.emitBody env (framePadded data) with hbody
  have hwire : s.transport.incoming =
      (header.1.1.bytes ++ header.1.2.bytes) ++ ((body.1.1 ++ body.1.2.bytes) ++ rest) := by
    rw [hin, emitFrame_fst]
    simp only [List.append_assoc, hheader, hbody]
  have hpadded : body.1.1.length = data.length + framePadding data.length := by
    rw [hbody, length_emitBody, length_framePadded]
  have hload1 : FixedBytes.load kFrameHeaderSize (header.1.1.bytes ++ header.1.2.bytes) = header.1.1 :=
    FixedBytes.load_append _ _
  have hload2 : FixedBytes.load kMacSize ((header.1.1.bytes ++ header.1.2.bytes).drop kFrameHeaderSize) =
      header.1.2 := by
    rw [List.drop_left' header.1.1.size_eq, FixedBytes.load_bytes]
  have htake : (body.1.1 ++ body.1.2.bytes).take (data.length + framePadding data.length) = body.1.1 := by
    rw [← hpadded, List.take_left]
  have hdrop : ((body.1.1 ++ body.1.2.bytes).drop (data.length + framePadding data.length)).take kMacSize =
      body.1.2.bytes := by
    rw [← hpadded, List.drop_left, List.take_of_length_le (Nat.le_of_eq body.1.2.size_eq)]
  have hopen : decryptFrameBody env data.length body.1.1 body.1.2.bytes header.2 = .ok data body.2 := by
    unfold decryptFrameBody
    rw [rejectIf_bind_of_not (by rw [FixedBytes.length_bytes]; omega)]
    exact openBody_framePadded header.2 data
  have hsize : decryptHeader env header.1.1 header.1.2 h = .ok data.length header.2 := decryptHeader_of_sizeFits hs h
  have hread : readFrame env s = .ok data (s.advance (h.emitFrame env data).2 rest) := by
    unfold readFrame
    rw [bind_of_ok (onTransport_readExact (by simp) hwire), hload1, hload2,
      bind_of_ok (onIngress_run hsize s _),
      bind_of_ok (onTransport_readExact (by simp [hpadded]) rfl), htake, hdrop]
    exact onIngress_run hopen s rest
  unfold receiveFrame
  rw [hread]

/-! ## One message -/

theorem compress_ne_nil (codec : SnappyCodec) {p : Bytes} (hp : p ≠ []) : codec.compress p ≠ [] := by
  intro h
  have := codec.length_le_compress p
  rw [h] at this
  exact hp (List.length_eq_zero_iff.mp (Nat.le_zero.mp this))

theorem openPayload_payloadBytes {compressionEnabled : Bool} {payload : Bytes}
    (hs : (payloadBytes codec.toSnappy compressionEnabled payload).length < 2 ^ 24) :
    openPayload codec compressionEnabled (payloadBytes codec.toSnappy compressionEnabled payload) = .ok payload := by
  unfold payloadBytes at hs
  unfold openPayload payloadBytes
  by_cases hp : payload = []
  · -- an empty payload is sent and read without the library
    rw [if_neg (not_not.mpr hp), if_neg (by simp), hp]
    rfl
  · rw [if_pos hp] at hs ⊢
    cases compressionEnabled with
    | false => rfl
    | true =>
        rw [if_pos rfl] at hs ⊢
        have hlt : payload.length < 2 ^ 32 := by
          have := codec.length_le_compress payload
          omega
        rw [if_pos ⟨rfl, compress_ne_nil codec hp⟩, codec.getUncompressedLength_compress payload hlt,
          codec.rawUncompress_compress payload hlt]
        show Except.ok (FixedBytes.load payload.length payload).bytes = _
        rw [FixedBytes.bytes_load_self rfl]

theorem readUInt_messageId (id : UIntTy.Val .uint8) (rest : Bytes) :
    readUInt .uint64 ⟨encodeString (toBigCompact id) ++ rest⟩ = .ok (id.setWidth _) ⟨rest⟩ := by
  apply readUInt_eq_ok_iff.mpr
  left
  rw [toBigCompact_eq, toBigCompact_eq, BitVec.toNat_setWidth_of_le (by decide)]

theorem openMessage_messageData {compressionEnabled : Bool} {params : MessageSendParams}
    (hs : (messageData codec.toSnappy compressionEnabled params).length < 2 ^ 24) :
    openMessage codec compressionEnabled (messageData codec.toSnappy compressionEnabled params) =
      .ok ⟨params.messageId, params.payload⟩ := by
  have hid : (params.messageId.setWidth 64).setWidth 8 = params.messageId :=
    BitVec.setWidth_setWidth_of_le _ (by decide)
  have hpayload := openPayload_payloadBytes (Nat.lt_of_le_of_lt (List.suffix_append _ _).length_le hs)
  unfold openMessage messageData
  rw [readUInt_messageId]
  simp only [RlpDecoder.remaining, hpayload, Outcome.ok_bind]
  exact congrArg (fun id => Except.ok (Message.mk id params.payload)) hid

theorem receiveMessage_emit {params : MessageSendParams} {s : MessageStream} {rest : Bytes}
    (hs : (messageData codec.toSnappy s.compressionEnabled params).length < 2 ^ 24)
    (hin : s.transport.incoming =
      (s.cipher.ingress.emitFrame env (messageData codec.toSnappy s.compressionEnabled params)).1 ++ rest) :
    receiveMessage env codec s = .ok ⟨params.messageId, params.payload⟩
      (s.advance (s.cipher.ingress.emitFrame env (messageData codec.toSnappy s.compressionEnabled params)).2 rest) := by
  have hne : messageData codec.toSnappy s.compressionEnabled params ≠ [] :=
    messageData_ne_nil s.compressionEnabled params
  have hfits : SizeFits (messageData codec.toSnappy s.compressionEnabled params) :=
    ⟨List.length_pos_iff.mpr hne, hs⟩
  unfold receiveMessage
  rw [bind_of_ok (receiveFrame_emit hfits hin), rejectIf_bind_of_not hne, get_bind]
  exact lift_eq_ok.mpr ⟨openMessage_messageData hs, rfl⟩

/-! ## Runs -/

/-- What happens on both ends at one point of a conversation: a message, or compression is switched on. -/
inductive StreamEvent
  | message (params : MessageSendParams)
  | compression

variable (env codec)

def sendEvent : StreamEvent → StreamM Unit
  | .message params => sendMessage env codec.toSnappy params
  | .compression => enableCompression

def receiveEvents : List StreamEvent → StreamM (List Message)
  | [] => return []
  | .message _ :: events => do
    let msg ← receiveMessage env codec
    let msgs ← receiveEvents events
    return msg :: msgs
  | .compression :: events => do
    enableCompression
    receiveEvents events

def sentMessages : List StreamEvent → List Message
  | [] => []
  | .message params :: events => ⟨params.messageId, params.payload⟩ :: sentMessages events
  | .compression :: events => sentMessages events

/-- The frame of every message is smaller than `2 ^ 24` bytes, in the mode that it is sent in. -/
def FramesFit (compressionEnabled : Bool) : List StreamEvent → Prop
  | [] => True
  | .message params :: events =>
    (messageData codec.toSnappy compressionEnabled params).length < 2 ^ 24 ∧ FramesFit compressionEnabled events
  | .compression :: events => FramesFit true events

variable {env codec}

theorem sendMessage_of_fits {params : MessageSendParams} {s : MessageStream} (hw : s.transport.writeLimit = none)
    (hs : (messageData codec.toSnappy s.compressionEnabled params).length < 2 ^ 24) :
    sendMessage env codec.toSnappy params s = .ok ()
      { s with
        cipher := { s.cipher with egress :=
          (s.cipher.egress.emitFrame env (messageData codec.toSnappy s.compressionEnabled params)).2 }
        transport := { s.transport with outgoing := s.transport.outgoing ++
          (s.cipher.egress.emitFrame env (messageData codec.toSnappy s.compressionEnabled params)).1 } } := by
  rw [sendMessage_run (Nat.le_of_lt hs)]
  refine zoom_of_ok (writeAll_eq_ok_iff.mpr ⟨?_, ?_⟩)
  · intro limit hlimit
    rw [hw] at hlimit
    exact nomatch hlimit
  · simp only [hw, Option.map_none]

/-- **Messages arrive as they were sent.** Whatever is sent over a cipher in step with the receiver's, with compression
enabled at the same messages on both ends, the calls of the receiver return the ids and payloads in order. -/
theorem message_stream_round_trip (env : RlpxPrimitives) (codec : SnappyCodec) (events : List StreamEvent)
    (sender : MessageStream) (hwrite : sender.transport.writeLimit = none)
    (hfits : FramesFit codec sender.compressionEnabled events) :
    ∃ wire sender', runAll (sendEvent env codec) events sender = .ok () sender' ∧
      sender'.transport.outgoing = sender.transport.outgoing ++ wire ∧
      ∀ (receiver : MessageStream) (rest : Bytes), receiver.cipher.ingress = sender.cipher.egress →
        receiver.compressionEnabled = sender.compressionEnabled → receiver.transport.incoming = wire ++ rest →
        ∃ receiver', receiveEvents env codec events receiver = .ok (sentMessages events) receiver' ∧
          receiver'.cipher.ingress = sender'.cipher.egress ∧ receiver'.transport.incoming = rest := by
  induction events generalizing sender with
  | nil =>
      refine ⟨[], sender, rfl, (List.append_nil _).symm, ?_⟩
      intro receiver rest hstep _ hin
      exact ⟨receiver, rfl, hstep, hin⟩
  | cons event events ih =>
      cases event with
      | message params =>
          obtain ⟨hsize, hrest⟩ := hfits
          set frame := sender.cipher.egress.emitFrame env
            (messageData codec.toSnappy sender.compressionEnabled params) with hframe
          obtain ⟨wire, sender', hrun, hout, hreceive⟩ := ih
            { sender with
              cipher := { sender.cipher with egress := frame.2 }
              transport := { sender.transport with outgoing := sender.transport.outgoing ++ frame.1 } } hwrite hrest
          refine ⟨frame.1 ++ wire, sender', (bind_of_ok (sendMessage_of_fits hwrite hsize) _).trans hrun, ?_, ?_⟩
          · rw [hout, List.append_assoc]
          · intro receiver rest hstep hmode hin
            rw [← hmode] at hsize
            rw [← hstep, ← hmode] at hframe
            have hmsg : receiveMessage env codec receiver =
                .ok ⟨params.messageId, params.payload⟩ (receiver.advance frame.2 (wire ++ rest)) := by
              rw [hframe]
              exact receiveMessage_emit hsize (by rw [hin, hframe, List.append_assoc])
            obtain ⟨receiver', hmsgs, hend, hlast⟩ :=
              hreceive (receiver.advance frame.2 (wire ++ rest)) rest rfl hmode rfl
            refine ⟨receiver', ?_, hend, hlast⟩
            simp only [receiveEvents]
            rw [bind_of_ok hmsg, bind_of_ok hmsgs]
            rfl
      | compression =>
          obtain ⟨wire, sender', hrun, hout, hreceive⟩ := ih { sender with compressionEnabled := true } hwrite hfits
          refine ⟨wire, sender', hrun, hout, ?_⟩
          intro receiver rest hstep _ hin
          exact hreceive { receiver with compressionEnabled := true } rest hstep rfl hin

/-- The length in front of what `sampleSnappy` writes. -/
def literalLength (b : Bytes) : Option Nat :=
  if b = [] then none
  else if b.headD 0 < 128 then some (b.headD 0).toNat
  else some ((b.take 5).foldr (fun x n => x.toNat % 128 + 128 * n) 0)

/-- A length of one byte goes with a tag of one byte. -/
def literalString (b : Bytes) : Option Bytes :=
  if b = [] then none else some (b.drop (if b.headD 0 < 128 then 2 else 10))

theorem length_le_sampleSnappy (p : Bytes) : p.length ≤ 64 * (sampleSnappy.compress p).length := by
  unfold sampleSnappy
  grind

theorem toUInt8_lt {n : Nat} (hn : n ≤ 60) : n.toUInt8 < 128 := by
  rw [UInt8.lt_iff_toNat_lt]
  simp
  omega

theorem not_toUInt8_lt (n : Nat) : ¬(n % 128 + 128).toUInt8 < 128 := by
  rw [UInt8.lt_iff_toNat_lt]
  simp
  omega

theorem literalLength_sampleSnappy (p : Bytes) (hp : p.length < 2 ^ 32) :
    literalLength (sampleSnappy.compress p) = some p.length := by
  unfold sampleSnappy literalLength
  by_cases hnil : p = []
  · subst hnil
    rfl
  by_cases hshort : p.length ≤ 60
  · simp [hnil, hshort, toUInt8_lt]
    omega
  · -- five digits of seven bits
    simp [hnil, hshort, not_toUInt8_lt, -UInt8.ofNat_add]
    omega

theorem literalString_sampleSnappy (p : Bytes) (_ : p.length < 2 ^ 32) :
    literalString (sampleSnappy.compress p) = some p := by
  unfold sampleSnappy literalString
  by_cases hnil : p = []
  · subst hnil
    rfl
  by_cases hshort : p.length ≤ 60
  · simp [hnil, hshort, toUInt8_lt]
  · simp [hnil, hshort, not_toUInt8_lt, -UInt8.ofNat_add]

def sampleCodec : SnappyCodec where
  toSnappy := sampleSnappy
  getUncompressedLength := literalLength
  rawUncompress := literalString
  getUncompressedLength_nil := rfl
  length_le_compress := length_le_sampleSnappy
  getUncompressedLength_compress := literalLength_sampleSnappy
  rawUncompress_compress := literalString_sampleSnappy

example : sampleCodec.compress [4] = [0x01, 0x00, 0x04] := by decide

theorem message_stream_round_trip_with_compression :
    let events : List StreamEvent := [.message ⟨0, []⟩, .message ⟨16, [1, 2, 3]⟩, .compression, .message ⟨200, []⟩,
      .message ⟨255, [4]⟩]
    ∃ wire sender', runAll (sendEvent sampleEnv sampleCodec) events sampleStream = .ok () sender' ∧
      sender'.transport.outgoing = wire ∧
      ∀ (receiver : MessageStream) (rest : Bytes), receiver.cipher.ingress = sampleStream.cipher.egress →
        receiver.compressionEnabled = false → receiver.transport.incoming = wire ++ rest →
        ∃ receiver', receiveEvents sampleEnv sampleCodec events receiver =
            .ok [⟨0, []⟩, ⟨16, [1, 2, 3]⟩, ⟨200, []⟩, ⟨255, [4]⟩] receiver' ∧
          receiver'.cipher.ingress = sender'.cipher.egress ∧ receiver'.transport.incoming = rest := by
  intro events
  exact message_stream_round_trip sampleEnv sampleCodec events sampleStream rfl
    ⟨by decide, by decide, by decide, by decide, trivial⟩

/-! ## Message ids -/

/-- The frame begins with an RLP string of the value `v`. -/
def LeadsWith (frame : Bytes) (v : Nat) : Prop :=
  ∃ p r : Bytes, p.length < kSizeModulus ∧ frame = encodeString p ++ r ∧ beLoad p = v

theorem leadsWith_of_readUInt {frame : Bytes} {v : UIntTy.Val .uint64} {d : RlpDecoder}
    (h : readUInt .uint64 ⟨frame⟩ = .ok v d) : LeadsWith frame v.toNat := by
  obtain ⟨p, hread, hp⟩ := readUInt_eq_ok_iff_readBytes.mp h
  obtain ⟨hlt, hframe⟩ := readBytes_eq_ok_iff.mp hread
  exact ⟨p, d.view, hlt, hframe, (fromBigCompact_eq_ok_iff.mp hp).2⟩

theorem LeadsWith.unique {frame : Bytes} {v w : Nat} (hv : LeadsWith frame v) (hw : LeadsWith frame w) : v = w := by
  obtain ⟨p, r, hp, hframe, rfl⟩ := hv
  obtain ⟨q, r', hq, hframe', rfl⟩ := hw
  rw [(Parses.bytes.unique ⟨hp, rfl⟩ ⟨hq, rfl⟩ (hframe.symm.trans hframe')).1]

theorem openMessage_eq_ok_iff {compressionEnabled : Bool} {frame : Bytes} {msg : Message} :
    openMessage codec compressionEnabled frame = .ok msg ↔
      ∃ v d, readUInt .uint64 ⟨frame⟩ = .ok v d ∧ openPayload codec compressionEnabled d.view = .ok msg.payload ∧
        msg.id = v.setWidth _ := by
  unfold openMessage
  cases hread : readUInt .uint64 ⟨frame⟩ with
  | error e d => simp
  | ok v d =>
      simp only [EStateM.Result.ok.injEq]
      constructor
      · intro h
        obtain ⟨payload, hpayload, hmsg⟩ := Outcome.bind_eq_ok.mp h
        obtain rfl := Outcome.pure_eq_ok.mp hmsg
        exact ⟨v, d, ⟨rfl, rfl⟩, hpayload, rfl⟩
      · intro h
        obtain ⟨_, _, ⟨rfl, rfl⟩, hpayload, hid⟩ := h
        refine Outcome.bind_eq_ok.mpr ⟨msg.payload, hpayload, ?_⟩
        rw [← hid]
        rfl

theorem receiveMessage_eq_ok_iff {s t u : MessageStream} {frame : Bytes} {msg : Message}
    (hframe : receiveFrame env s = .ok frame t) :
    receiveMessage env codec s = .ok msg u ↔ openMessage codec t.compressionEnabled frame = .ok msg ∧ u = t := by
  unfold receiveMessage
  rw [bind_of_ok hframe, rejectIf_bind_eq_ok, get_bind, lift_eq_ok]
  constructor
  · exact fun h => h.2
  · intro h
    refine ⟨?_, h⟩
    intro hnil
    -- an empty frame has no leading integer
    obtain ⟨v, d, hread, -⟩ := openMessage_eq_ok_iff.mp h.1
    obtain ⟨p, r, -, hp, -⟩ := leadsWith_of_readUInt hread
    rw [hnil] at hp
    exact encodeString_ne_nil p (List.append_eq_nil_iff.mp hp.symm).1

/-- **The id of a received message is the leading integer of its frame, and larger integers are refused, exactly for the
frames that do not start with a 64-bit integer above `255` and a readable payload.** -/
theorem message_id_exact_iff (env : RlpxPrimitives) (codec : SnappyCodec) (s t : MessageStream) (frame : Bytes)
    (hframe : receiveFrame env s = .ok frame t) :
    ((∀ msg u, receiveMessage env codec s = .ok msg u → LeadsWith frame msg.id.toNat) ∧
        ∀ v, LeadsWith frame v → 2 ^ 8 ≤ v → ∀ msg u, receiveMessage env codec s ≠ .ok msg u) ↔
      ¬ ∃ (v : UIntTy.Val .uint64) (r payload : Bytes), 2 ^ 8 ≤ v.toNat ∧
        frame = encodeString (toBigCompact v) ++ r ∧ openPayload codec t.compressionEnabled r = .ok payload := by
  constructor
  · intro hexact hlarge
    obtain ⟨v, r, payload, hv, hr, hpayload⟩ := hlarge
    have hread : readUInt .uint64 ⟨frame⟩ = .ok v ⟨r⟩ := readUInt_eq_ok_iff.mpr (.inl hr)
    have hopen : openMessage codec t.compressionEnabled frame = .ok ⟨v.setWidth _, payload⟩ :=
      openMessage_eq_ok_iff.mpr ⟨v, ⟨r⟩, hread, hpayload, rfl⟩
    exact hexact.2 v.toNat (leadsWith_of_readUInt hread) hv _ t ((receiveMessage_eq_ok_iff hframe).mpr ⟨hopen, rfl⟩)
  · intro hsmall
    have hread : ∀ msg u, receiveMessage env codec s = .ok msg u →
        LeadsWith frame msg.id.toNat ∧ msg.id.toNat < 2 ^ 8 := by
      intro msg u hmsg
      obtain ⟨v, d, hv, hpayload, hid⟩ := openMessage_eq_ok_iff.mp ((receiveMessage_eq_ok_iff hframe).mp hmsg).1
      have hlt : v.toNat < 2 ^ 8 := by
        by_contra hge
        rcases readUInt_eq_ok_iff.mp hv with hr | ⟨hzero, -⟩
        · exact hsmall ⟨v, d.view, msg.payload, not_lt.mp hge, hr, hpayload⟩
        · exact hge (by rw [hzero]; decide)
      have hkeep : msg.id.toNat = v.toNat := by
        rw [hid, BitVec.toNat_setWidth]
        exact Nat.mod_eq_of_lt hlt
      rw [hkeep]
      exact ⟨leadsWith_of_readUInt hv, hlt⟩
    refine ⟨fun msg u hmsg => (hread msg u hmsg).1, ?_⟩
    intro v hv hge msg u hmsg
    have heq := hv.unique (hread msg u hmsg).1
    have hlt := (hread msg u hmsg).2
    omega

/-- A stream to which `data` is on its way in one frame. -/
def streamWithFrame (data : Bytes) : MessageStream :=
  sampleStream.advance sampleStream.cipher.ingress (sampleStream.cipher.ingress.emitFrame sampleEnv data).1

theorem receiveFrame_streamWithFrame {data : Bytes} (hs : SizeFits data) :
    ∃ t, receiveFrame sampleEnv (streamWithFrame data) = .ok data t ∧ t.compressionEnabled = false :=
  ⟨_, receiveFrame_emit (s := streamWithFrame data) hs (by rw [List.append_nil]; rfl), rfl⟩

theorem message_id_exact_for_ping : ∃ t, receiveFrame sampleEnv (streamWithFrame [2, 0xC0]) = .ok [2, 0xC0] t ∧
    (((∀ msg u, receiveMessage sampleEnv sampleCodec (streamWithFrame [2, 0xC0]) = .ok msg u →
        LeadsWith [2, 0xC0] msg.id.toNat) ∧
      ∀ v, LeadsWith [2, 0xC0] v → 2 ^ 8 ≤ v →
        ∀ msg u, receiveMessage sampleEnv sampleCodec (streamWithFrame [2, 0xC0]) ≠ .ok msg u) ↔
      ¬ ∃ (v : UIntTy.Val .uint64) (r payload : Bytes), 2 ^ 8 ≤ v.toNat ∧
        [2, 0xC0] = encodeString (toBigCompact v) ++ r ∧
        openPayload sampleCodec t.compressionEnabled r = .ok payload) := by
  obtain ⟨t, hframe, -⟩ := receiveFrame_streamWithFrame (show SizeFits [2, 0xC0] from ⟨by decide, by decide⟩)
  exact ⟨t, hframe, message_id_exact_iff sampleEnv sampleCodec _ t _ hframe⟩

/-- The integer `256` in front of a frame is received as the id `0`, that of a Hello. -/
theorem message_id_truncated : ∃ t, receiveFrame sampleEnv (streamWithFrame [0x82, 1, 0, 0xC0]) =
    .ok [0x82, 1, 0, 0xC0] t ∧
    LeadsWith [0x82, 1, 0, 0xC0] 256 ∧
    receiveMessage sampleEnv sampleCodec (streamWithFrame [0x82, 1, 0, 0xC0]) = .ok ⟨0, [0xC0]⟩ t := by
  obtain ⟨t, hframe, hmode⟩ := receiveFrame_streamWithFrame
    (show SizeFits [0x82, 1, 0, 0xC0] from ⟨by decide, by decide⟩)
  refine ⟨t, hframe, ⟨[1, 0], [0xC0], by decide, by decide, by decide⟩, ?_⟩
  refine (receiveMessage_eq_ok_iff hframe).mpr ⟨?_, rfl⟩
  rw [hmode]
  decide

end DevP2P.Rlpx
