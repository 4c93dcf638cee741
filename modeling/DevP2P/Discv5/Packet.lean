import DevP2P.Discv5.SessionCrypto

/-!
# Packets (`discv5/discv5_client.cpp`)

A packet is a masking IV, a masked header and a message; the header is a static part of 23 bytes, the last
field of which is the size of the authentication data behind it. The mask is an AES-128-CTR keystream.

* `encodePacket` : masks the whole header in one pass;
* `decodePacket` : unmasks the static part, learns the size from it and unmasks the rest;
* `decodePacket_encodePacket` : the decoder returns what the encoder was given, and the same unmasked header;
  `packet_round_trip` : for every authentication data whose size fits its field.
-/

namespace DevP2P.Discv5
open DevP2P.Lib

abbrev kProtocolIdBytes : Nat := 6
abbrev kWhoareyouIdNonceBytes : Nat := 16

/-- The protocol id `"discv5"`. -/
def kProtocolId : Bytes := ascii ['d', 'i', 's', 'c', 'v', '5']

def kProtocolVersion : UInt16 := 1

/-! The sizes and offsets of `StaticHeaderWire` and `WhoareyouAuthDataWire`. -/

abbrev kStaticHeaderVersionOffset : Nat := kProtocolIdBytes
abbrev kStaticHeaderFlagOffset : Nat := kStaticHeaderVersionOffset + 2
abbrev kStaticHeaderNonceOffset : Nat := kStaticHeaderFlagOffset + 1
abbrev kStaticHeaderAuthSizeOffset : Nat := kStaticHeaderNonceOffset + kGcmNonceBytes
abbrev kStaticHeaderBytes : Nat := kStaticHeaderAuthSizeOffset + 2
abbrev kStaticPacketBytes : Nat := kMaskingIvBytes + kStaticHeaderBytes
abbrev kWhoareyouAuthDataBytes : Nat := kWhoareyouIdNonceBytes + 8

def kFlagMessage : UInt8 := 0
def kFlagWhoareyou : UInt8 := 1
def kFlagHandshake : UInt8 := 2

structure PacketView where
  flag : UInt8
  nonce : GcmNonce
  authSize : UInt16
  /-- The IV, the unmasked static header and the unmasked authentication data. -/
  headerData : Bytes
  authData : Bytes
  msgData : Bytes
deriving DecidableEq

def readU16be (data : Bytes) : UInt16 := UInt16.ofNat (beLoad (data.take 2))
def appendU16be (value : UInt16) : Bytes := beStore 2 value.toNat
def readU64be (data : Bytes) : UInt64 := UInt64.ofNat (beLoad (data.take 8))
def appendU64be (value : UInt64) : Bytes := beStore 8 value.toNat

variable (env : ClientPrimitives)

/-- The keystream that masks a packet for `destination`. -/
def maskStream (destination : NodeAddress) (iv : MaskingIv) : Nat → UInt8 :=
  env.aes128Ctr (.load _ destination.bytes) iv

def staticHeader (flag : UInt8) (nonce : GcmNonce) (authSize : UInt16) : Bytes :=
  kProtocolId ++ (appendU16be kProtocolVersion ++ (flag :: (nonce.bytes ++ appendU16be authSize)))

/-- What `encode_packet` returns, and what it writes to `unmasked_header_out`. -/
structure EncodedPacket where
  packet : Bytes
  headerData : Bytes
deriving DecidableEq

/-- `encode_packet`, with the random IV, or `none` when there are no random bytes. -/
def encodePacket (iv : Option MaskingIv) (flag : UInt8) (nonce : GcmNonce) (authData msgData : Bytes)
    (destination : NodeAddress) : Except Discv5Error EncodedPacket := do
  let iv ← Outcome.unwrap iv .kNetworkSendFailed
  let header := staticHeader flag nonce (UInt16.ofNat authData.length) ++ authData
  rejectIf (env.cipherContext = false) .kNetworkSendFailed
  return ⟨iv.bytes ++ streamXor (maskStream env destination iv) 0 header ++ msgData, iv.bytes ++ header⟩

def decodePacket (data : Bytes) (destination : NodeAddress) : Except Discv5Error PacketView := do
  rejectIf (data.length < kStaticPacketBytes) .kNetworkReceiveFailed
  rejectIf (env.cipherContext = false) .kContextCreationFailed
  let iv : MaskingIv := .load _ data
  let static := streamXor (maskStream env destination iv) 0 ((data.drop kMaskingIvBytes).take kStaticHeaderBytes)
  rejectIf (static.take kProtocolIdBytes ≠ kProtocolId) .kNetworkReceiveFailed
  rejectIf (readU16be (static.drop kStaticHeaderVersionOffset) < kProtocolVersion) .kNetworkReceiveFailed
  let authSize := readU16be (static.drop kStaticHeaderAuthSizeOffset)
  let authEnd := kStaticPacketBytes + authSize.toNat
  rejectIf (authEnd > data.length) .kNetworkReceiveFailed
  -- the keystream goes on where the static header left it
  let authData := streamXor (maskStream env destination iv) kStaticHeaderBytes
    ((data.drop kStaticPacketBytes).take authSize.toNat)
  return {
    flag := Bytes.at static kStaticHeaderFlagOffset
    nonce := .load _ (static.drop kStaticHeaderNonceOffset)
    authSize := authSize
    headerData := iv.bytes ++ static ++ authData
    authData := authData
    msgData := data.drop authEnd }

/-! ## The round trip -/

theorem readU16be_appendU16be (value : UInt16) (rest : Bytes) :
    readU16be (appendU16be value ++ rest) = value := by
  have hlt : value.toNat < 256 ^ 2 := value.toNat_lt
  unfold readU16be appendU16be
  rw [List.take_left' (length_beStore 2 _), beLoad_beStore_of_lt hlt, UInt16.ofNat_toNat]

section StaticHeader

variable (flag : UInt8) (nonce : GcmNonce) (authSize : UInt16)

@[simp] theorem length_staticHeader : (staticHeader flag nonce authSize).length = kStaticHeaderBytes := by
  show (nonce.bytes ++ appendU16be authSize).length + 9 = 23
  simp [appendU16be]

theorem take_staticHeader : (staticHeader flag nonce authSize).take kProtocolIdBytes = kProtocolId := rfl

theorem version_staticHeader :
    readU16be ((staticHeader flag nonce authSize).drop kStaticHeaderVersionOffset) = kProtocolVersion :=
  readU16be_appendU16be _ _

theorem flag_staticHeader : Bytes.at (staticHeader flag nonce authSize) kStaticHeaderFlagOffset = flag := rfl

theorem nonce_staticHeader :
    FixedBytes.load _ ((staticHeader flag nonce authSize).drop kStaticHeaderNonceOffset) = nonce :=
  FixedBytes.load_append nonce _

theorem authSize_staticHeader :
    readU16be ((staticHeader flag nonce authSize).drop kStaticHeaderAuthSizeOffset) = authSize := by
  have hdrop : (staticHeader flag nonce authSize).drop kStaticHeaderAuthSizeOffset = appendU16be authSize := by
    show (nonce.bytes ++ appendU16be authSize).drop kGcmNonceBytes = _
    exact List.drop_left' nonce.size_eq
  rw [hdrop]
  simpa using readU16be_appendU16be authSize []

end StaticHeader

variable {env}

theorem encodePacket_eq_ok_iff {iv : Option MaskingIv} {flag : UInt8} {nonce : GcmNonce}
    {authData msgData : Bytes} {destination : NodeAddress} {encoded : EncodedPacket} :
    encodePacket env iv flag nonce authData msgData destination = .ok encoded ↔
      env.cipherContext = true ∧ ∃ iv', iv = some iv' ∧
        encoded = ⟨iv'.bytes ++ streamXor (maskStream env destination iv') 0
            (staticHeader flag nonce (UInt16.ofNat authData.length) ++ authData) ++ msgData,
          iv'.bytes ++ (staticHeader flag nonce (UInt16.ofNat authData.length) ++ authData)⟩ := by
  unfold encodePacket
  simp only [Outcome.bind_eq_ok, Outcome.unwrap_eq_ok, Outcome.rejectIf_eq_ok, Outcome.pure_eq_ok,
    Bool.not_eq_false]
  constructor
  · rintro ⟨iv', hiv, -, hctx, h⟩
    exact ⟨hctx, iv', hiv, h.symm⟩
  · rintro ⟨hctx, iv', hiv, h⟩
    exact ⟨iv', hiv, (), hctx, h.symm⟩

/-- The decoder reads back what the encoder was given, with anything that was appended to the packet as a
message; the unmasked header is the one that the encoder reports. -/
theorem decodePacket_encodePacket {iv : Option MaskingIv} {flag : UInt8} {nonce : GcmNonce}
    {authData msgData : Bytes} {destination : NodeAddress} {encoded : EncodedPacket}
    (hsize : authData.length < 2 ^ 16)
    (h : encodePacket env iv flag nonce authData msgData destination = .ok encoded) (rest : Bytes) :
    decodePacket env (encoded.packet ++ rest) destination = .ok
      { flag, nonce, authSize := UInt16.ofNat authData.length, headerData := encoded.headerData, authData,
        msgData := msgData ++ rest } := by
  obtain ⟨hctx, iv, rfl, rfl⟩ := encodePacket_eq_ok_iff.mp h
  have hauth : (UInt16.ofNat authData.length).toNat = authData.length := UInt16.toNat_ofNat_of_lt' hsize
  -- the masked header is the masked static header, then the authentication data masked from byte 23 on
  have hmask : iv.bytes ++ streamXor (maskStream env destination iv) 0
      (staticHeader flag nonce (UInt16.ofNat authData.length) ++ authData) ++ msgData ++ rest =
      iv.bytes ++ (streamXor (maskStream env destination iv) 0
          (staticHeader flag nonce (UInt16.ofNat authData.length)) ++
        (streamXor (maskStream env destination iv) kStaticHeaderBytes authData ++ (msgData ++ rest))) := by
    rw [streamXor_append, length_staticHeader]
    simp only [List.append_assoc, Nat.zero_add]
  have hlen : kStaticPacketBytes + authData.length ≤ (iv.bytes ++ (streamXor (maskStream env destination iv) 0
      (staticHeader flag nonce (UInt16.ofNat authData.length)) ++
        (streamXor (maskStream env destination iv) kStaticHeaderBytes authData ++ (msgData ++ rest)))).length := by
    simp only [List.length_append, length_streamXor, length_staticHeader, FixedBytes.length_bytes, kStaticPacketBytes]
    omega
  have hstatic (x : Bytes) : (streamXor (maskStream env destination iv) 0
      (staticHeader flag nonce (UInt16.ofNat authData.length)) ++ x).take kStaticHeaderBytes =
      streamXor (maskStream env destination iv) 0 (staticHeader flag nonce (UInt16.ofNat authData.length)) :=
    List.take_left' (by simp)
  have hdrop (x : Bytes) : (iv.bytes ++ (streamXor (maskStream env destination iv) 0
      (staticHeader flag nonce (UInt16.ofNat authData.length)) ++ x)).drop kStaticPacketBytes = x := by
    rw [← List.append_assoc]
    exact List.drop_left' (by simp)
  unfold decodePacket
  simp only [hmask]
  rw [Outcome.rejectIf_bind_of_not (by omega),
    Outcome.rejectIf_bind_of_not (by simp [hctx]), FixedBytes.load_append, List.drop_left' iv.size_eq, hstatic,
    streamXor_streamXor, Outcome.rejectIf_bind_of_not (by simp [take_staticHeader]), version_staticHeader,
    Outcome.rejectIf_bind_of_not (by decide), authSize_staticHeader, hauth,
    Outcome.rejectIf_bind_of_not (not_lt.mpr hlen), hdrop, flag_staticHeader, nonce_staticHeader,
    List.take_left' (length_streamXor _ _ _), streamXor_streamXor, ← List.drop_drop, hdrop,
    List.drop_left' (length_streamXor _ _ _), List.append_assoc]
  rfl

/-- **The packet codec round-trips.** With a cipher context the packet is built, and a packet that is built is read by
the same destination: the fields and the message are those given to the encoder, and the unmasked headers of both sides
are equal. -/
theorem packet_round_trip (env : ClientPrimitives) (iv : MaskingIv) (flag : UInt8) (nonce : GcmNonce)
    (authData : { b : Bytes // b.length ≤ 65535 }) (msgData : Bytes) (destination : NodeAddress) :
    (env.cipherContext = true →
      ∃ encoded, encodePacket env (some iv) flag nonce authData msgData destination = .ok encoded) ∧
    ∀ encoded, encodePacket env (some iv) flag nonce authData msgData destination = .ok encoded →
      ∃ view, decodePacket env encoded.packet destination = .ok view ∧ view.flag = flag ∧ view.nonce = nonce ∧
        view.authSize.toNat = authData.val.length ∧ view.authData = authData ∧ view.msgData = msgData ∧
        view.headerData = encoded.headerData := by
  have hsize : authData.val.length < 2 ^ 16 := by
    have := authData.property
    omega
  constructor
  · intro hctx
    exact ⟨_, encodePacket_eq_ok_iff.mpr ⟨hctx, iv, rfl, rfl⟩⟩
  · intro encoded h
    have hdecode := decodePacket_encodePacket hsize h []
    rw [List.append_nil, List.append_nil] at hdecode
    exact ⟨_, hdecode, rfl, rfl, UInt16.toNat_ofNat_of_lt' hsize, rfl, rfl, rfl⟩

end DevP2P.Discv5
