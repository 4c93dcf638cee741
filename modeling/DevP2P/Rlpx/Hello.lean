import DevP2P.Rlp.Appends
import DevP2P.Rlp.Reads
import DevP2P.Rlpx.MessageReceive

/-!
# Hello (`rlpx/protocol/messages.cpp`, the handshake part of `rlpx/rlpx_session.cpp`)

* `HelloMessage.encode`, `HelloMessage.decode` : the codec; the decoder reads the versions as byte strings and keeps
  their first byte, and reads capabilities until an item that is not a list;
* `negotiateEthVersion`, `handleFirstMessage` : what a session takes from the Hello of its peer;
* `WireHello` : a Hello on the wire, with integers of any size; `decode_wire` : what the decoder makes of it;
* `hello_round_trip` : a message that was encoded is decoded to itself;
* `hello_integers_faithful_iff` : the integers of a Hello are read as they are exactly when they fit a byte.
-/

namespace DevP2P.Rlpx
open DevP2P.Lib DevP2P.Rlp Stateful

def kHelloMessageId : UIntTy.Val .uint8 := 0x00
def kDisconnectMessageId : UIntTy.Val .uint8 := 0x01
def kProtocolVersion : UIntTy.Val .uint8 := 5
def kEthProtocolVersion66 : UIntTy.Val .uint8 := 66
def kEthProtocolVersion69 : UIntTy.Val .uint8 := 69

structure Capability where
  name : Bytes
  version : UIntTy.Val .uint8
deriving DecidableEq

structure HelloMessage where
  protocolVersion : UIntTy.Val .uint8
  clientId : Bytes
  capabilities : List Capability
  listenPort : UIntTy.Val .uint16
  nodeId : PublicKey
deriving DecidableEq

/-! ## Encoding -/

/-- One capability, the list `[name, version]`. -/
def Capability.add (cap : Capability) : EncodeM Unit := nestedList do
  addBytes cap.name
  addUInt cap.version

namespace HelloMessage

def addFields (msg : HelloMessage) : EncodeM Unit := do
  addUInt msg.protocolVersion
  addBytes msg.clientId
  nestedList (msg.capabilities.forM Capability.add)
  addUInt msg.listenPort
  addBytes msg.nodeId.bytes

/-- `HelloMessage::encode`. -/
def encode (msg : HelloMessage) : Except SessionError Bytes :=
  Stateful.outcome (withError .kInvalidMessage (do nestedList msg.addFields; getBytes) .new)

end HelloMessage

/-! ## Decoding -/

abbrev HelloM := EStateM SessionError RlpDecoder

/-- `bytes.empty() ? 0 : bytes[0]`. -/
def firstByte : Bytes → UIntTy.Val .uint8
  | [] => 0
  | x :: _ => x.toBitVec

/-- The name and the version of a capability, behind its list header. -/
def readCapability : DecodeM Capability := do
  let nameBytes ← readBytes
  let verBytes ← readBytes
  return ⟨nameBytes, firstByte verBytes⟩

/-- The loop over the capabilities, with room for `fuel` rounds. It does not look at the length of their list. -/
def readCapabilities : Nat → List Capability → HelloM (List Capability)
  | 0, capabilities => return capabilities
  | fuel + 1, capabilities => fun d =>
    if d.isFinished ∨ d.isList ≠ .ok true then .ok capabilities d
    else match readListHeaderBytes d with
      | .error _ d => .ok capabilities d
      | .ok _ d =>
        match readCapability d with
        -- an entry that cannot be read is left out
        | .error _ d => readCapabilities fuel capabilities d
        | .ok cap d => readCapabilities fuel (capabilities ++ [cap]) d

/-- A read whose failure ends the decoding. -/
def required {α : Type} (x : DecodeM α) : HelloM α := withError .kInvalidMessage x

/-- The steps of `HelloMessage::decode`. -/
def readHello : HelloM HelloMessage := do
  let _ ← required readListHeaderBytes
  let versionBytes ← required readBytes
  let clientIdBytes ← required readBytes
  let _ ← required readListHeaderBytes
  let d ← get
  let capabilities ← readCapabilities d.remaining.length []
  let port ← required (readUInt .uint16)
  let idBytes ← required readBytes
  rejectIf (idBytes.length ≠ kPublicKeySize) .kInvalidMessage
  return ⟨firstByte versionBytes, clientIdBytes, capabilities, port, .load _ idBytes⟩

/-- `HelloMessage::decode`. -/
def HelloMessage.decode (rlpData : ByteView) : Except SessionError HelloMessage :=
  Stateful.outcome (readHello ⟨rlpData⟩)

/-! ## The session -/

/-- The name of the `eth` protocol. -/
def ethName : Bytes := ascii ['e', 't', 'h']

/-- The loop body of `negotiate_eth_version`. -/
def considerCapability (negotiatedVersion : UIntTy.Val .uint8) (cap : Capability) : UIntTy.Val .uint8 :=
  if cap.name ≠ ethName then negotiatedVersion
  else if (kEthProtocolVersion66 ≤ cap.version ∧ cap.version ≤ kEthProtocolVersion69) ∧
      negotiatedVersion < cap.version then cap.version
  else negotiatedVersion

/-- `negotiate_eth_version`: the highest supported version among the capabilities. -/
def negotiateEthVersion (capabilities : List Capability) : UIntTy.Val .uint8 := capabilities.foldl considerCapability 0

/-- What a session keeps of the Hello of its peer. -/
structure SessionInfo where
  clientId : Bytes
  listenPort : UIntTy.Val .uint16
  negotiatedEthVersion : UIntTy.Val .uint8
  compressionEnabled : Bool
deriving DecidableEq

/-- What `RlpxSession::connect` does with the first message of the peer. -/
def handleFirstMessage (peerMsg : Message) (s : SessionInfo) : Except SessionError SessionInfo :=
  if peerMsg.id = kHelloMessageId then
    match HelloMessage.decode peerMsg.payload with
    | .ok hello => .ok {
        clientId := hello.clientId
        listenPort := hello.listenPort
        negotiatedEthVersion := negotiateEthVersion hello.capabilities
        compressionEnabled := s.compressionEnabled || decide (kProtocolVersion ≤ hello.protocolVersion) }
    | .error _ => .ok s
  else if peerMsg.id = kDisconnectMessageId then .error .kHandshakeFailed
  else .ok s

/-! ## Hello on the wire -/

/-- A Hello `[version, client_id, [[name, cap_version], ...], port, node_id]`, its integers of any size. -/
structure WireHello where
  version : Nat
  clientId : Bytes
  capabilities : List (Bytes × Nat)
  port : Nat
  nodeId : Bytes

def capabilityItem (cap : Bytes × Nat) : Item := .list [.string cap.1, .string (beBytes cap.2)]

namespace WireHello

def item (w : WireHello) : Item :=
  .list [.string (beBytes w.version), .string w.clientId, .list (w.capabilities.map capabilityItem),
    .string (beBytes w.port), .string w.nodeId]

/-- The version of the protocol and those of the capabilities. -/
def versions (w : WireHello) : List Nat := w.version :: w.capabilities.map Prod.snd

def shownCapabilities (w : WireHello) : List Capability :=
  w.capabilities.map fun cap => ⟨cap.1, firstByte (beBytes cap.2)⟩

/-- The message that the decoder makes of it. -/
def shown (w : WireHello) : HelloMessage :=
  ⟨firstByte (beBytes w.version), w.clientId, w.shownCapabilities, BitVec.ofNat _ w.port, .load _ w.nodeId⟩

end WireHello

def capabilityBytes (cap : Bytes × Nat) : Bytes := encodeList (encodeString cap.1 ++ encodeString (beBytes cap.2))

theorem encodeAll_map_capabilityItem (caps : List (Bytes × Nat)) :
    encodeAll (caps.map capabilityItem) = caps.flatMap capabilityBytes := by
  induction caps with
  | nil => simp
  | cons cap caps ih =>
      rw [List.map_cons, encodeAll_cons, ih, List.flatMap_cons]
      simp [capabilityItem, capabilityBytes]

theorem WireHello.encode_item (w : WireHello) :
    w.item.encode = encodeList (encodeString (beBytes w.version) ++ (encodeString w.clientId ++
      (encodeList (w.capabilities.flatMap capabilityBytes) ++
        (encodeString (beBytes w.port) ++ encodeString w.nodeId)))) := by
  simp [WireHello.item, encodeAll_map_capabilityItem]

structure WireHello.Sized (w : WireHello) : Prop where
  version : (beBytes w.version).length < kSizeModulus
  clientId : w.clientId.length < kSizeModulus
  capabilities : (w.capabilities.flatMap capabilityBytes).length < kSizeModulus
  port : (beBytes w.port).length < kSizeModulus
  nodeId : w.nodeId.length < kSizeModulus
  payload : (encodeString (beBytes w.version) ++ (encodeString w.clientId ++
    (encodeList (w.capabilities.flatMap capabilityBytes) ++
      (encodeString (beBytes w.port) ++ encodeString w.nodeId)))).length < kSizeModulus

theorem WireHello.sized_of_length {w : WireHello} (h : w.item.encode.length < 2 ^ 64) : w.Sized := by
  rw [w.encode_item] at h
  have hpayload := lt_of_le_of_lt (length_le_encodeList _) h
  have h1 := length_le_encodeString (beBytes w.version)
  have h2 := length_le_encodeString w.clientId
  have h3 := length_le_encodeList (w.capabilities.flatMap capabilityBytes)
  have h4 := length_le_encodeString (beBytes w.port)
  have h5 := length_le_encodeString w.nodeId
  have hsum := hpayload
  simp only [List.length_append] at hsum
  constructor
  all_goals first | exact hpayload | (unfold kSizeModulus; omega)

theorem length_lt_of_capability {caps : List (Bytes × Nat)} (h : (caps.flatMap capabilityBytes).length < kSizeModulus) :
    ∀ cap ∈ caps, (encodeString cap.1 ++ encodeString (beBytes cap.2)).length < kSizeModulus := by
  intro cap hcap
  have hle := length_le_flatMap (f := capabilityBytes) hcap
  have hpayload := length_le_encodeList (encodeString cap.1 ++ encodeString (beBytes cap.2))
  exact lt_of_le_of_lt (hpayload.trans hle) h

/-! ### Reading it -/

theorem required_of_ok {α : Type} {x : DecodeM α} {a : α} {d d' : RlpDecoder} (h : x d = .ok a d') :
    required x d = .ok a d' := withError_eq_ok.mpr h

theorem required_readBytes {s : Bytes} (hs : s.length < kSizeModulus) (r : Bytes) :
    required readBytes ⟨encodeString s ++ r⟩ = .ok s ⟨r⟩ :=
  required_of_ok (readBytes_eq_ok_iff.mpr ⟨hs, rfl⟩)

theorem readCapability_run {cap : Bytes × Nat}
    (h : (encodeString cap.1 ++ encodeString (beBytes cap.2)).length < kSizeModulus) (r : Bytes) :
    readCapability ⟨encodeString cap.1 ++ encodeString (beBytes cap.2) ++ r⟩ =
      .ok ⟨cap.1, firstByte (beBytes cap.2)⟩ ⟨r⟩ := by
  have h1 := length_le_encodeString cap.1
  have h2 := length_le_encodeString (beBytes cap.2)
  rw [List.length_append] at h
  unfold readCapability
  rw [List.append_assoc, bind_of_ok (readBytes_eq_ok_iff.mpr ⟨by omega, rfl⟩),
    bind_of_ok (readBytes_eq_ok_iff.mpr ⟨by omega, rfl⟩), pure_apply]

theorem readCapabilities_run {caps : List (Bytes × Nat)} (hcaps : (caps.flatMap capabilityBytes).length < kSizeModulus)
    {r : Bytes} (hr : (RlpDecoder.mk r).isList = .ok false) (fuel : Nat) (acc : List Capability)
    (hfuel : caps.length ≤ fuel) :
    readCapabilities fuel acc ⟨caps.flatMap capabilityBytes ++ r⟩ =
      .ok (acc ++ caps.map fun cap => ⟨cap.1, firstByte (beBytes cap.2)⟩) ⟨r⟩ := by
  induction caps generalizing fuel acc with
  | nil =>
      rw [List.map_nil, List.append_nil]
      cases fuel with
      | zero => rfl
      | succ fuel =>
          simp only [readCapabilities, List.flatMap_nil, List.nil_append, hr]
          rw [if_pos (Or.inr (by simp))]
  | cons cap caps ih =>
      obtain ⟨fuel, rfl⟩ : ∃ k, fuel = k + 1 := Nat.exists_eq_succ_of_ne_zero (by simp at hfuel; omega)
      have hpayload := length_lt_of_capability hcaps cap List.mem_cons_self
      have hlist : (RlpDecoder.mk (capabilityBytes cap ++ (caps.flatMap capabilityBytes ++ r))).isList = .ok true := by
        rw [capabilityBytes, encodeList, List.append_assoc]
        exact isList_headerBytes hpayload _
      have hnot : ¬ ((RlpDecoder.mk (capabilityBytes cap ++ (caps.flatMap capabilityBytes ++ r))).isFinished ∨
          (RlpDecoder.mk (capabilityBytes cap ++ (caps.flatMap capabilityBytes ++ r))).isList ≠ .ok true) := by
        rw [hlist]
        simp [RlpDecoder.isFinished, capabilityBytes, encodeList_ne_nil]
      have hheader := readListHeaderBytes_encodeList_append hpayload (caps.flatMap capabilityBytes ++ r)
      rw [← capabilityBytes] at hheader
      rw [List.flatMap_cons, List.length_append] at hcaps
      rw [List.flatMap_cons, List.append_assoc]
      simp only [readCapabilities]
      rw [if_neg hnot, hheader]
      simp only [readCapability_run hpayload]
      rw [ih (by omega) fuel _ (by simpa using hfuel), List.map_cons, List.append_assoc, List.singleton_append]

theorem required_port_of_lt {n : Nat} (hn : n < 2 ^ 16) (r : Bytes) :
    required (readUInt .uint16) ⟨encodeString (beBytes n) ++ r⟩ = .ok (BitVec.ofNat _ n) ⟨r⟩ := by
  refine required_of_ok (readUInt_eq_ok_iff.mpr (.inl ?_))
  rw [toBigCompact_eq, UIntTy.toNat_ofNat hn]

theorem required_port_of_ge {n : Nat} (hn : 2 ^ 16 ≤ n) (hsize : (beBytes n).length < kSizeModulus) (r : Bytes) :
    ∃ d, required (readUInt .uint16) ⟨encodeString (beBytes n) ++ r⟩ = .error .kInvalidMessage d := by
  unfold required withError
  cases hread : readUInt .uint16 ⟨encodeString (beBytes n) ++ r⟩ with
  | error e d => exact ⟨d, rfl⟩
  | ok v d =>
      obtain ⟨p, hp, hv⟩ := readUInt_eq_ok_iff_readBytes.mp hread
      obtain ⟨hlt, heq⟩ := readBytes_eq_ok_iff.mp hp
      have hbytes := (Parses.bytes.unique ⟨hsize, rfl⟩ ⟨hlt, rfl⟩ heq).1
      have hload := (fromBigCompact_eq_ok_iff.mp hv).2
      have hval : v.toNat < 2 ^ 16 := v.isLt
      rw [← hbytes, beLoad_beBytes] at hload
      omega

theorem capabilityBytes_ne_nil (cap : Bytes × Nat) : capabilityBytes cap ≠ [] := encodeList_ne_nil _

/-- What `decode` makes of a Hello on the wire: the port and the id are checked, the versions are not. -/
theorem decode_wire {w : WireHello} (hw : w.Sized) :
    HelloMessage.decode w.item.encode =
      if w.port < 2 ^ 16 ∧ w.nodeId.length = kPublicKeySize then .ok w.shown else .error .kInvalidMessage := by
  have hfuel : w.capabilities.length ≤ (RlpDecoder.mk (w.capabilities.flatMap capabilityBytes ++
      (encodeString (beBytes w.port) ++ encodeString w.nodeId))).remaining.length := by
    have := card_le_length_flatMap capabilityBytes_ne_nil w.capabilities
    rw [RlpDecoder.remaining, List.length_append]
    omega
  have hid : required readBytes ⟨encodeString w.nodeId⟩ = .ok w.nodeId ⟨[]⟩ := by
    have := required_readBytes hw.nodeId []
    rwa [List.append_nil] at this
  unfold HelloMessage.decode readHello
  rw [w.encode_item, bind_of_ok (required_of_ok (readListHeaderBytes_encodeList hw.payload)),
    bind_of_ok (required_readBytes hw.version _), bind_of_ok (required_readBytes hw.clientId _),
    bind_of_ok (required_of_ok (readListHeaderBytes_encodeList_append hw.capabilities _)),
    get_bind, bind_of_ok
      (readCapabilities_run hw.capabilities (isList_encodeString hw.port _) _ [] hfuel), List.nil_append]
  by_cases hport : w.port < 2 ^ 16
  · rw [bind_of_ok (required_port_of_lt hport _), bind_of_ok hid]
    by_cases hlen : w.nodeId.length = kPublicKeySize
    · rw [rejectIf_bind_of_not (not_not.mpr hlen), if_pos ⟨hport, hlen⟩]
      rfl
    · rw [rejectIf_bind_of hlen, if_neg (fun h => hlen h.2)]
      rfl
  · obtain ⟨d, hfail⟩ := required_port_of_ge (not_lt.mp hport) hw.port (encodeString w.nodeId)
    rw [bind_of_error hfail, if_neg (fun h => hport h.1)]
    rfl

/-! ## The round trip -/

namespace HelloMessage

def wire (msg : HelloMessage) : WireHello where
  version := msg.protocolVersion.toNat
  clientId := msg.clientId
  capabilities := msg.capabilities.map fun cap => (cap.name, cap.version.toNat)
  port := msg.listenPort.toNat
  nodeId := msg.nodeId.bytes

end HelloMessage

theorem firstByte_beBytes_of_lt {n : Nat} (h : n < 2 ^ 8) : firstByte (beBytes n) = BitVec.ofNat _ n := by
  rcases Nat.eq_zero_or_pos n with rfl | hpos
  · rfl
  · rw [beBytes_of_lt_256 (by omega) h]
    rfl

theorem firstByte_beBytes (v : UIntTy.Val .uint8) : firstByte (beBytes v.toNat) = v := by
  rw [firstByte_beBytes_of_lt v.isLt, BitVec.ofNat_toNat, BitVec.setWidth_eq]

theorem shown_wire (msg : HelloMessage) : msg.wire.shown = msg := by
  have hcaps : msg.wire.shownCapabilities = msg.capabilities := by
    unfold WireHello.shownCapabilities HelloMessage.wire
    rw [List.map_map]
    refine (List.map_congr_left fun cap _ => ?_).trans (List.map_id _)
    simp only [Function.comp_apply, firstByte_beBytes, id]
  have hport : BitVec.ofNat _ msg.listenPort.toNat = msg.listenPort := by
    rw [BitVec.ofNat_toNat, BitVec.setWidth_eq]
  unfold WireHello.shown
  rw [hcaps]
  simp only [HelloMessage.wire, firstByte_beBytes, FixedBytes.load_bytes]
  exact congrArg (fun port => HelloMessage.mk _ _ _ port _) hport

theorem appends_capability {cap : Capability}
    (h : (encodeString cap.name ++ encodeString (beBytes cap.version.toNat)).length < kSizeModulus) :
    Appends cap.add (capabilityBytes (cap.name, cap.version.toNat)) := by
  have hname := length_le_encodeString cap.name
  rw [List.length_append] at h
  exact ((Appends.bytes (by omega)).seq (Appends.uint cap.version)).list (by rwa [List.length_append])

theorem encode_run {msg : HelloMessage} (hw : msg.wire.Sized) : msg.encode = .ok msg.wire.item.encode := by
  have hcaps : Appends (msg.capabilities.forM Capability.add) (msg.wire.capabilities.flatMap capabilityBytes) := by
    have hsized := length_lt_of_capability hw.capabilities
    show Appends _ ((msg.capabilities.map fun cap => (cap.name, cap.version.toNat)).flatMap capabilityBytes)
    rw [List.flatMap_map]
    refine Appends.each _ fun cap hcap => appends_capability ?_
    exact hsized _ (List.mem_map_of_mem (f := fun cap : Capability => (cap.name, cap.version.toNat)) hcap)
  have hfields : Appends msg.addFields _ :=
    (Appends.uint msg.protocolVersion).seq ((Appends.bytes hw.clientId).seq ((hcaps.list hw.capabilities).seq
      ((Appends.uint msg.listenPort).seq (Appends.bytes hw.nodeId))))
  have hrun : (do nestedList msg.addFields; getBytes : EncodeM Bytes) .new =
      .ok msg.wire.item.encode ⟨msg.wire.item.encode, []⟩ := by
    unfold RlpEncoder.new
    rw [bind_of_ok (hfields.list hw.payload [] []), List.nil_append, getBytes_run, msg.wire.encode_item]
    rfl
  unfold HelloMessage.encode
  rw [outcome_eq_ok]
  exact ⟨_, withError_eq_ok.mpr hrun⟩

/-- **A Hello is decoded to the message that was encoded**, with any capabilities, names, versions, port and id. -/
theorem hello_round_trip (msg : HelloMessage) (hlen : msg.wire.item.encode.length < 2 ^ 64) :
    ∃ b, msg.encode = .ok b ∧ HelloMessage.decode b = .ok msg := by
  have hw := WireHello.sized_of_length hlen
  refine ⟨_, encode_run hw, ?_⟩
  rw [decode_wire hw, if_pos ⟨msg.listenPort.isLt, msg.nodeId.size_eq⟩, shown_wire]

def sampleHello : HelloMessage where
  protocolVersion := 5
  clientId := ascii ['n', 'o', 'd', 'e']
  capabilities := [⟨ethName, 68⟩, ⟨[7], 0⟩, ⟨[], 255⟩]
  listenPort := 30303
  nodeId := .load _ [1, 2, 3]

theorem sampleHello_round_trip : ∃ b, sampleHello.encode = .ok b ∧ HelloMessage.decode b = .ok sampleHello :=
  hello_round_trip sampleHello (by rw [WireHello.encode_item]; decide)

/-! ## Integers of any size -/

/-- The versions are read as they are on the wire, larger ones are refused, and no version is negotiated that the peer
did not advertise. -/
structure WireHello.Faithful (w : WireHello) : Prop where
  protocolVersion : ∀ msg, HelloMessage.decode w.item.encode = .ok msg → msg.protocolVersion.toNat = w.version
  capabilities : ∀ msg, HelloMessage.decode w.item.encode = .ok msg →
    msg.capabilities.map (fun cap => (cap.name, cap.version.toNat)) = w.capabilities
  rejects : (∃ v ∈ w.versions, 2 ^ 8 ≤ v) → ∀ msg, HelloMessage.decode w.item.encode ≠ .ok msg
  negotiates : ∀ msg, HelloMessage.decode w.item.encode = .ok msg → negotiateEthVersion msg.capabilities ≠ 0 →
    (ethName, (negotiateEthVersion msg.capabilities).toNat) ∈ w.capabilities

theorem considerCapability_cases (v : UIntTy.Val .uint8) (cap : Capability) :
    considerCapability v cap = v ∨ cap = ⟨ethName, considerCapability v cap⟩ := by
  unfold considerCapability
  split_ifs with hname hbetter
  · exact .inl rfl
  · right
    rw [← not_not.mp hname]
  · exact .inl rfl

/-- The loop ends with the version it started with, or with that of one of the `eth` capabilities. -/
theorem foldl_considerCapability (caps : List Capability) (v : UIntTy.Val .uint8) :
    caps.foldl considerCapability v = v ∨ ⟨ethName, caps.foldl considerCapability v⟩ ∈ caps := by
  induction caps generalizing v with
  | nil => exact .inl rfl
  | cons cap caps ih =>
      rw [List.foldl_cons]
      rcases ih (considerCapability v cap) with hsame | hmem
      · rw [hsame]
        rcases considerCapability_cases v cap with hkeep | hcap
        · exact .inl hkeep
        · right
          rw [← hcap]
          exact List.mem_cons_self
      · exact .inr (List.mem_cons_of_mem _ hmem)

theorem negotiated_mem {caps : List Capability} (h : negotiateEthVersion caps ≠ 0) :
    ⟨ethName, negotiateEthVersion caps⟩ ∈ caps :=
  (foldl_considerCapability caps 0).resolve_left h

theorem shownCapabilities_of_fits {w : WireHello} (h : ∀ v ∈ w.versions, v < 2 ^ 8) :
    w.shownCapabilities.map (fun cap => (cap.name, cap.version.toNat)) = w.capabilities := by
  unfold WireHello.shownCapabilities
  rw [List.map_map]
  refine (List.map_congr_left fun cap hcap => ?_).trans (List.map_id _)
  have hlt : cap.2 < 2 ^ 8 := h cap.2 (List.mem_cons_of_mem _ (List.mem_map_of_mem hcap))
  simp only [Function.comp_apply, firstByte_beBytes_of_lt hlt]
  exact congrArg (Prod.mk cap.1) (UIntTy.toNat_ofNat hlt)

theorem faithful_of_fits {w : WireHello} (hw : w.Sized) (hfits : ∀ v ∈ w.versions, v < 2 ^ 8) : w.Faithful := by
  have hcaps := shownCapabilities_of_fits hfits
  have hmsg : ∀ msg, HelloMessage.decode w.item.encode = .ok msg → msg = w.shown := by
    intro msg h
    rw [decode_wire hw] at h
    split_ifs at h
    exact (Except.ok.inj h).symm
  refine ⟨?_, ?_, ?_, ?_⟩
  · intro msg h
    have hversion : w.version < 2 ^ 8 := hfits w.version List.mem_cons_self
    rw [hmsg msg h]
    show (firstByte (beBytes w.version)).toNat = w.version
    rw [firstByte_beBytes_of_lt hversion]
    exact UIntTy.toNat_ofNat hversion
  · intro msg h
    rw [hmsg msg h]
    exact hcaps
  · intro hlarge
    obtain ⟨v, hv, hge⟩ := hlarge
    have := hfits v hv
    omega
  · intro msg h hne
    rw [hmsg msg h] at hne ⊢
    -- the selected capability is one of those shown, and these are those on the wire
    have hmem := List.mem_map_of_mem (f := fun cap : Capability => (cap.name, cap.version.toNat)) (negotiated_mem hne)
    rwa [show w.shown.capabilities = w.shownCapabilities from rfl, hcaps] at hmem

theorem faithful_of_refused {w : WireHello} (h : ∀ msg, HelloMessage.decode w.item.encode ≠ .ok msg) : w.Faithful :=
  ⟨fun msg hmsg => absurd hmsg (h msg), fun msg hmsg => absurd hmsg (h msg), fun _ => h,
    fun msg hmsg => absurd hmsg (h msg)⟩

/-- **The versions of a Hello are read faithfully exactly when they all fit a byte, or the port or the id is
refused.** -/
theorem hello_integers_faithful_iff (w : WireHello) (hlen : w.item.encode.length < 2 ^ 64) :
    w.Faithful ↔ ¬ (w.port < 2 ^ 16 ∧ w.nodeId.length = kPublicKeySize ∧ ∃ v ∈ w.versions, 2 ^ 8 ≤ v) := by
  have hw := WireHello.sized_of_length hlen
  have hdecode := decode_wire hw
  constructor
  · intro h hlarge
    rw [if_pos ⟨hlarge.1, hlarge.2.1⟩] at hdecode
    exact h.rejects hlarge.2.2 _ hdecode
  · intro hsmall
    by_cases hok : w.port < 2 ^ 16 ∧ w.nodeId.length = kPublicKeySize
    · apply faithful_of_fits hw
      intro v hv
      by_contra hge
      exact hsmall ⟨hok.1, hok.2, v, hv, not_lt.mp hge⟩
    · rw [if_neg hok] at hdecode
      apply faithful_of_refused
      intro msg h
      rw [hdecode] at h
      exact nomatch h

/-- A peer that advertises `eth` with one version. -/
def ethPeer (version : Nat) : WireHello := ⟨5, [], [(ethName, version)], 0, List.replicate 64 0⟩

theorem ethPeer_faithful : (ethPeer 68).Faithful :=
  (hello_integers_faithful_iff (ethPeer 68) (by rw [WireHello.encode_item]; decide)).mpr (by decide)

/-- A peer that advertises the version `0x4400` only is decoded, and `68` is negotiated with it. -/
theorem unadvertised_version_negotiated : ∃ msg, HelloMessage.decode (ethPeer 0x4400).item.encode = .ok msg ∧
    negotiateEthVersion msg.capabilities = 68 ∧ (ethName, 68) ∉ (ethPeer 0x4400).capabilities := by
  have hsized : (ethPeer 0x4400).Sized := WireHello.sized_of_length (by rw [WireHello.encode_item]; decide)
  refine ⟨(ethPeer 0x4400).shown, ?_, by decide, by decide⟩
  rw [decode_wire hsized, if_pos ⟨by decide, by decide⟩]

/-! ## The first message of a peer -/

theorem handleFirstMessage_negotiates {w : WireHello} (hw : w.Sized) (hfits : ∀ v ∈ w.versions, v < 2 ^ 8)
    {s s' : SessionInfo} (hs : s.negotiatedEthVersion = 0)
    (h : handleFirstMessage ⟨kHelloMessageId, w.item.encode⟩ s = .ok s') (hne : s'.negotiatedEthVersion ≠ 0) :
    (ethName, s'.negotiatedEthVersion.toNat) ∈ w.capabilities := by
  unfold handleFirstMessage at h
  rw [if_pos rfl] at h
  cases hdecode : HelloMessage.decode w.item.encode with
  | ok hello =>
      simp only [hdecode, Except.ok.injEq] at h
      subst h
      exact (faithful_of_fits hw hfits).negotiates hello hdecode hne
  | error e =>
      simp only [hdecode, Except.ok.injEq] at h
      rw [← h] at hne
      exact absurd hs hne

end DevP2P.Rlpx
