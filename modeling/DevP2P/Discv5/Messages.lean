import DevP2P.Discv5.Enr
import DevP2P.Discv5.SessionCrypto
import DevP2P.Rlp.Appends

/-!
# Messages and authentication data (`discv5/discv5_client.cpp`)

* `makeFindnodePlaintext`, `makeNodesPlaintext` : the two messages of the client;
* `parseFindnodeReqId`, `parseNodesMessage` : what it reads of them;
* `makeHandshakeAuthData`, `parseHandshakeAuth` : the authentication data of a handshake;
* `findnode_read_back`, `parseHandshakeAuth_makeHandshakeAuthData` : a request and the authentication data are
  read as they were written.
-/

namespace DevP2P.Discv5
open DevP2P.Lib DevP2P.Rlp Stateful

def kMsgFindNode : UInt8 := 0x03
def kMsgNodes : UInt8 := 0x04
def kDefaultUdpPort : UInt16 := 9000
def kDefaultTcpPort : UInt16 := 30303

abbrev kFindNodeDistanceAll : Nat := 256
abbrev kNodesResponseCountSingle : Nat := 1
abbrev kMessageTypePrefixBytes : Nat := 1
abbrev kHandshakeAuthSigSizeOffset : Nat := kKeccak256Bytes
abbrev kHandshakeAuthPubkeySizeOffset : Nat := kHandshakeAuthSigSizeOffset + 1
abbrev kHandshakeAuthFixedBytes : Nat := kKeccak256Bytes + 2

/-- `ValidatedPeer`, without the time of its last contact, which nothing here reads. -/
structure ValidatedPeer where
  nodeId : NodeId
  ip : Bytes
  udpPort : UInt16
  tcpPort : UInt16
  ethForkId : Option ForkId
deriving DecidableEq

/-- `EnrParser::to_validated_peer`. -/
def EnrParser.toValidatedPeer (record : EnrRecord) : Except Discv5Error ValidatedPeer := do
  rejectIf (record.ip = [] ∧ record.ip6 = []) .kEnrMissingAddress
  return {
    nodeId := record.nodeId
    ethForkId := record.ethForkId
    ip := if record.ip ≠ [] then record.ip else record.ip6
    udpPort :=
      if record.ip ≠ [] then if record.udpPort ≠ 0 then record.udpPort else kDefaultUdpPort
      else if record.udp6Port ≠ 0 then record.udp6Port else kDefaultUdpPort
    tcpPort :=
      if record.ip ≠ [] then if record.tcpPort ≠ 0 then record.tcpPort else kDefaultTcpPort
      else if record.tcp6Port ≠ 0 then record.tcp6Port else kDefaultTcpPort }

/-! ## Requests and replies -/

/-- A message: its type, then one list. Every failure of the encoder is `kNetworkSendFailed`. -/
def makePlaintext (msgType : UInt8) (body : EncodeM Unit) : Except Discv5Error Bytes := do
  let bytes ← (Stateful.outcome (encodeListOf body RlpEncoder.new)).mapError fun _ => .kNetworkSendFailed
  return msgType :: bytes

def makeFindnodePlaintext (reqId : Bytes) : Except Discv5Error Bytes :=
  makePlaintext kMsgFindNode do
    addBytes reqId
    nestedList (addUInt (T := .uint32) (BitVec.ofNat _ kFindNodeDistanceAll))

def makeNodesPlaintext (reqId enrRecord : Bytes) : Except Discv5Error Bytes :=
  makePlaintext kMsgNodes do
    addBytes reqId
    addUInt (T := .uint8) (BitVec.ofNat _ kNodesResponseCountSingle)
    nestedList (addRaw enrRecord)

def parseFindnodeReqId (body : Bytes) : Except Discv5Error Bytes :=
  Stateful.outcome ((do
    let _ ← withError .kNetworkReceiveFailed readListHeaderBytes
    withError .kNetworkReceiveFailed readBytes : EStateM Discv5Error RlpDecoder Bytes) ⟨body⟩)

/-- A reported error becomes `none`; a read outside an object stays one. -/
def skipError {α : Type} : Except EnrFault α → Except EnrFault (Option α)
  | .ok a => .ok (some a)
  | .error (.error _) => .ok none
  | .error .outOfBounds => .error .outOfBounds

section

variable (env : EnrPrimitives)

/-- The peer of one record, if the parser and the signature check accept it. -/
def peerOfRecord (raw : Bytes) : Except EnrFault (Option ValidatedPeer) :=
  skipError do
    let record ← EnrParser.decodeRlp env raw
    let record ← EnrParser.verifySignature env record
    (EnrParser.toValidatedPeer record).mapError .error

/-- The loop of `parse_nodes_message` over the records, with room for `fuel` items. A record that is refused is
skipped; the loop ends at the end of the list or at the first item it cannot read. -/
def nodesLoop (nodesStart nodesLen : Nat) :
    Nat → RlpDecoder → List ValidatedPeer → Except EnrFault (List ValidatedPeer)
  | 0, _, peers => .ok peers
  | fuel + 1, d, peers =>
    if d.isFinished ∨ nodesLen ≤ nodesStart - d.view.length then .ok peers
    else match d.peekHeader with
      | .error _ => .ok peers
      | .ok header => match skipItem d with
        | .error _ _ => .ok peers
        | .ok _ d' => do
          let peer ← peerOfRecord env (d.view.take (header.headerSizeBytes + header.payloadSizeBytes))
          nodesLoop nodesStart nodesLen fuel d' (peers ++ peer.toList)

structure NodesMessage where
  reqId : Bytes
  peers : List ValidatedPeer
deriving DecidableEq

def parseNodesMessage (body : Bytes) : Except EnrFault NodesMessage :=
  Stateful.outcome ((do
    let _ ← withError (.error .kNetworkReceiveFailed) readListHeaderBytes
    let reqId ← withError (.error .kNetworkReceiveFailed) readBytes
    let _ ← withError (.error .kNetworkReceiveFailed) (readUInt .uint8)
    let nodesLen ← withError (.error .kNetworkReceiveFailed) readListHeaderBytes
    let d ← get
    let peers ← Stateful.lift (nodesLoop env d.view.length nodesLen d.view.length d [])
    return ⟨reqId, peers⟩ : EStateM EnrFault RlpDecoder NodesMessage) ⟨body⟩)

end

/-! ## Authentication data -/

def makeMessageAuthData (localNodeAddr : NodeAddress) : Bytes := localNodeAddr.bytes

structure HandshakeAuthView where
  srcId : NodeAddress
  signature : Bytes
  pubkey : Bytes
  record : Bytes
deriving DecidableEq

def parseHandshakeAuth (authData : Bytes) : Except Discv5Error HandshakeAuthView := do
  rejectIf (authData.length < kHandshakeAuthFixedBytes) .kNetworkReceiveFailed
  let sigSize := (Bytes.at authData kHandshakeAuthSigSizeOffset).toNat
  let pubkeySize := (Bytes.at authData kHandshakeAuthPubkeySizeOffset).toNat
  let pubkeyOffset := kHandshakeAuthFixedBytes + sigSize
  let recordOffset := pubkeyOffset + pubkeySize
  rejectIf (recordOffset > authData.length) .kNetworkReceiveFailed
  return {
    srcId := .load _ authData
    signature := (authData.drop kHandshakeAuthFixedBytes).take sigSize
    pubkey := (authData.drop pubkeyOffset).take pubkeySize
    record := authData.drop recordOffset }

/-- The authentication data that `send_findnode` puts together for a handshake. -/
def makeHandshakeAuthData (localNodeAddr : NodeAddress) (signature pubkey record : Bytes) : Bytes :=
  localNodeAddr.bytes ++ (UInt8.ofNat signature.length :: UInt8.ofNat pubkey.length ::
    (signature ++ (pubkey ++ record)))

/-! ## Reading what was written -/

def findnodeBytes (reqId : Bytes) : Bytes :=
  encodeList (encodeString reqId ++ encodeList (encodeString (beBytes kFindNodeDistanceAll)))

theorem length_findnode_lt {reqId : Bytes} (h : reqId.length ≤ 4) :
    (encodeString reqId ++ encodeList (encodeString (beBytes kFindNodeDistanceAll))).length < kSizeModulus := by
  have h1 := length_encodeString_le (lt_of_le_of_lt h (show 4 < kSizeModulus by decide))
  have h2 : (encodeList (encodeString (beBytes kFindNodeDistanceAll))).length = 4 := by decide
  rw [List.length_append, h2]
  exact lt_of_le_of_lt (show _ ≤ 17 by omega) (by decide)

theorem makeFindnodePlaintext_run {reqId : Bytes} (h : reqId.length ≤ 4) :
    makeFindnodePlaintext reqId = .ok (kMsgFindNode :: findnodeBytes reqId) := by
  have hid : reqId.length < kSizeModulus := lt_of_le_of_lt h (by decide)
  have happ : Appends (do addBytes reqId; nestedList (addUInt (T := .uint32) (BitVec.ofNat _ kFindNodeDistanceAll)))
      (encodeString reqId ++ encodeList (encodeString (beBytes kFindNodeDistanceAll))) :=
    (Appends.bytes hid).seq ((Appends.uint (T := .uint32) (BitVec.ofNat _ kFindNodeDistanceAll)).list (by decide))
  unfold makeFindnodePlaintext makePlaintext
  rw [encodeListOf_run happ (length_findnode_lt h)]
  rfl

theorem findnode_read_back {reqId : Bytes} (h : reqId.length ≤ 4) :
    parseFindnodeReqId (findnodeBytes reqId) = .ok reqId := by
  have hheader : readListHeaderBytes ⟨findnodeBytes reqId⟩ = .ok _ ⟨encodeString reqId ++ _⟩ :=
    readListHeaderBytes_eq_ok_iff.mpr ⟨length_findnode_lt h, le_rfl, rfl⟩
  have hid : readBytes ⟨encodeString reqId ++ encodeList (encodeString (beBytes kFindNodeDistanceAll))⟩ =
      .ok reqId ⟨_⟩ :=
    readBytes_eq_ok_iff.mpr ⟨lt_of_le_of_lt h (by decide), rfl⟩
  unfold parseFindnodeReqId
  apply outcome_eq_ok.mpr
  exact ⟨_, bind_eq_ok.mpr
    ⟨_, _, withError_eq_ok.mpr hheader, withError_eq_ok.mpr hid⟩⟩

theorem length_makeHandshakeAuthData (localNodeAddr : NodeAddress) (signature pubkey record : Bytes) :
    (makeHandshakeAuthData localNodeAddr signature pubkey record).length =
      kHandshakeAuthFixedBytes + signature.length + pubkey.length + record.length := by
  simp only [makeHandshakeAuthData, List.length_append, List.length_cons, localNodeAddr.size_eq,
    kHandshakeAuthFixedBytes]
  omega

theorem parseHandshakeAuth_makeHandshakeAuthData (localNodeAddr : NodeAddress) {signature pubkey : Bytes}
    (hsig : signature.length < 256) (hkey : pubkey.length < 256) (record : Bytes) :
    parseHandshakeAuth (makeHandshakeAuthData localNodeAddr signature pubkey record) =
      .ok ⟨localNodeAddr, signature, pubkey, record⟩ := by
  have hsize {n : Nat} (h : n < 256) : (UInt8.ofNat n).toNat = n := UInt8.toNat_ofNat_of_lt' h
  have hbody : (localNodeAddr.bytes ++ (UInt8.ofNat signature.length :: UInt8.ofNat pubkey.length ::
      (signature ++ (pubkey ++ record)))).drop kHandshakeAuthFixedBytes = signature ++ (pubkey ++ record) := by
    rw [show kHandshakeAuthFixedBytes = kKeccak256Bytes + 2 from rfl, ← List.drop_drop,
      List.drop_left' localNodeAddr.size_eq]
    rfl
  have hpubkey : (localNodeAddr.bytes ++ (UInt8.ofNat signature.length :: UInt8.ofNat pubkey.length ::
      (signature ++ (pubkey ++ record)))).drop (kHandshakeAuthFixedBytes + signature.length) = pubkey ++ record := by
    rw [← List.drop_drop, hbody, List.drop_left]
  have hrecord : (localNodeAddr.bytes ++ (UInt8.ofNat signature.length :: UInt8.ofNat pubkey.length ::
      (signature ++ (pubkey ++ record)))).drop (kHandshakeAuthFixedBytes + signature.length + pubkey.length) =
        record := by
    rw [← List.drop_drop, hpubkey, List.drop_left]
  have hat (x : Bytes) (i : Nat) : Bytes.at (localNodeAddr.bytes ++ x) (kKeccak256Bytes + i) = Bytes.at x i := by
    have := Bytes.at_append_right localNodeAddr.bytes x i
    rwa [localNodeAddr.size_eq] at this
  have hsigAt := hat (UInt8.ofNat signature.length :: UInt8.ofNat pubkey.length :: (signature ++ (pubkey ++ record))) 0
  have hkeyAt := hat (UInt8.ofNat signature.length :: UInt8.ofNat pubkey.length :: (signature ++ (pubkey ++ record))) 1
  unfold parseHandshakeAuth makeHandshakeAuthData
  rw [Outcome.rejectIf_bind_of_not (by simp), show kHandshakeAuthSigSizeOffset = kKeccak256Bytes + 0 from rfl, hsigAt,
    show kHandshakeAuthPubkeySizeOffset = kKeccak256Bytes + 1 from rfl, hkeyAt, Bytes.at_cons_zero,
    Bytes.at_cons_succ, Bytes.at_cons_zero, hsize hsig, hsize hkey, Outcome.rejectIf_bind_of_not]
  · rw [FixedBytes.load_append, hrecord, hpubkey, hbody, List.take_left, List.take_left]
    rfl
  · have := length_makeHandshakeAuthData localNodeAddr signature pubkey record
    unfold makeHandshakeAuthData at this
    omega

end DevP2P.Discv5
