import DevP2P.Discv5.Crawler
import DevP2P.Discv5.LocalEnr
import DevP2P.Discv5.Packet

/-!
# The client (`discv5/discv5_client.cpp`)

The client runs on one thread: a packet is handled in one go, and a task that a handler spawns runs later, in one
go up to its last call, which is the one to the socket. Sessions, pending requests and challenges are kept per
endpoint, under the text of its address and port.

* `Discv5Client` : the state, with the tasks that wait and the packets that were sent;
* `TaskInput` : what a task gets from the random number generator and from the socket;
* `sendFindnode`, `sendWhoareyou`, `handleFindnodeRequest` : the tasks; `runTask` runs one;
* `handlePacket` : the handler, with a part for each kind of packet.
-/

namespace DevP2P.Discv5
open DevP2P.Lib DevP2P.Rlp

abbrev kRandomMessageCiphertextBytes : Nat := 20
abbrev kMessageAuthDataBytes : Nat := kKeccak256Bytes

/-! ## State -/

structure Endpoint where
  address : IpAddress
  port : UInt16
deriving DecidableEq

structure SessionState where
  writeKey : SessionKey
  readKey : SessionKey
  remoteNodeAddr : NodeAddress
  remoteNodeId : NodeId
  lastReqId : Bytes
deriving DecidableEq

structure PendingRequest where
  peer : ValidatedPeer
  reqId : Bytes
  requestNonce : GcmNonce
  challengeData : Bytes
  idNonce : FixedBytes kWhoareyouIdNonceBytes
  recordSeq : UInt64
  haveChallenge : Bool
deriving DecidableEq

structure ChallengeState where
  remoteNodeAddr : NodeAddress
  challengeData : Bytes
  requestNonce : GcmNonce
  idNonce : FixedBytes kWhoareyouIdNonceBytes
  recordSeq : UInt64
deriving DecidableEq

structure Counters where
  sendFindnodeFailures : Nat := 0
  whoareyouPackets : Nat := 0
  handshakePackets : Nat := 0
  outboundHandshakeAttempts : Nat := 0
  outboundHandshakeFailures : Nat := 0
  inboundHandshakeRejectAuth : Nat := 0
  inboundHandshakeRejectChallenge : Nat := 0
  inboundHandshakeRejectRecord : Nat := 0
  inboundHandshakeRejectCrypto : Nat := 0
  inboundHandshakeRejectDecrypt : Nat := 0
  inboundHandshakeSeen : Nat := 0
  inboundMessageSeen : Nat := 0
  inboundMessageDecryptFail : Nat := 0
  nodesPackets : Nat := 0
deriving DecidableEq

/-- A task that was given to `asio::spawn`. -/
inductive Task
  /-- The request of the crawler loop. -/
  | query (peer : ValidatedPeer)
  /-- The request that answers a WHOAREYOU packet. -/
  | retry (peer : ValidatedPeer)
  | sendWhoareyou (sender : Endpoint) (remoteNodeAddr : NodeAddress) (requestNonce : GcmNonce)
  | handleFindnodeRequest (reqId : Bytes) (sender : Endpoint)
deriving DecidableEq

/-- A table with one entry per endpoint, under the text of the endpoint. -/
abbrev Table (α : Type) := Finmap (fun _ : Bytes => α)

structure Discv5Client where
  config : Discv5Config
  /-- The port of `socket_.local_endpoint()`, or `none` when the call fails. -/
  boundPort : Option UInt16
  sessions : Table SessionState
  pendingRequests : Table PendingRequest
  sentChallenges : Table ChallengeState
  crawler : Crawler
  counters : Counters
  /-- The tasks that were spawned and have not been run. -/
  tasks : List Task
  /-- The packets that the socket has taken. -/
  sent : List (Endpoint × Bytes)

/-- What a task gets from outside: random bytes, each draw being `none` when it fails, and whether the socket
takes its packet. -/
structure TaskInput where
  keyDraws : List (Option Rlpx.PrivateKey)
  nonce : Option GcmNonce
  randomMsg : Option (FixedBytes kRandomMessageCiphertextBytes)
  idNonce : Option (FixedBytes kWhoareyouIdNonceBytes)
  iv : Option MaskingIv
  socketTakes : Bool

/-- `endpoint_key(ip, port)`. -/
def endpointKeyOf (ip : Bytes) (port : UInt16) : Bytes :=
  ip ++ ascii [':'] ++ ascii (Nat.toDigits 10 port.toNat)

variable (env : ClientPrimitives)

/-- `endpoint_key(endpoint)`. -/
def endpointKey (endpoint : Endpoint) : Bytes := endpointKeyOf (env.addressToString endpoint.address) endpoint.port

section

variable {ε : Type}

def count (f : Counters → Counters) : EStateM ε Discv5Client Unit :=
  modify fun c => { c with counters := f c.counters }

def spawn (task : Task) : EStateM ε Discv5Client Unit := modify fun c => { c with tasks := c.tasks ++ [task] }

end

/-! ## Tasks -/

/-- A task that is running; on failure it keeps what it has done to the client. -/
abbrev SendM := EStateM Discv5Error Discv5Client

def socketSend (input : TaskInput) (destination : Endpoint) (packet : Bytes) : SendM Unit := do
  rejectIf (input.socketTakes = false) .kNetworkSendFailed
  modify fun c => { c with sent := c.sent ++ [(destination, packet)] }

def sendPacket (input : TaskInput) (packet : Bytes) (peer : ValidatedPeer) : SendM Unit := do
  let address ← Stateful.lift (Outcome.unwrap (env.makeAddress peer.ip) .kNetworkSendFailed)
  socketSend input ⟨address, peer.udpPort⟩ packet

def buildLocalEnr : SendM Bytes := do
  let c ← get
  let port ← Stateful.lift (Outcome.unwrap c.boundPort .kNetworkSendFailed)
  Stateful.lift (makeLocalEnrRecord env c.config port)

/-- The id of a request: the two ports of the peer. -/
def findnodeReqId (peer : ValidatedPeer) : Bytes := appendU16be peer.udpPort ++ appendU16be peer.tcpPort

/-- A message under a session key, with the packet that carries it. -/
def sessionPacket (input : TaskInput) (localNodeAddr remoteNodeAddr : NodeAddress) (key : SessionKey)
    (plaintext : Bytes) : Except Discv5Error Bytes := do
  let nonce ← Outcome.unwrap input.nonce .kNetworkSendFailed
  let encoded ← encodePacket env input.iv kFlagMessage nonce (makeMessageAuthData localNodeAddr) [] remoteNodeAddr
  let encrypted ← encryptGcm env key nonce plaintext encoded.headerData
  return encoded.packet ++ encrypted

/-- `send_findnode` when there is a session. -/
def sendOnSession (input : TaskInput) (peer : ValidatedPeer) (session : SessionState) : SendM Unit := do
  let c ← get
  let plaintext ← Stateful.lift (makeFindnodePlaintext (findnodeReqId peer))
  let packet ← Stateful.lift (sessionPacket env input (deriveNodeAddress env c.config.publicKey)
    (deriveNodeAddress env peer.nodeId) session.writeKey plaintext)
  modify fun c => { c with
    sessions := c.sessions.insert (endpointKeyOf peer.ip peer.udpPort) { session with
      lastReqId := findnodeReqId peer } }
  sendPacket env input packet peer

/-- `x`; when it fails, the pending request under `key` is dropped. -/
def orForget {α : Type} (key : Bytes) (x : Except Discv5Error α) : SendM α := fun c =>
  match x with
  | .ok a => .ok a c
  | .error e => .error e { c with pendingRequests := c.pendingRequests.erase key }

/-- `send_findnode` when there is neither a session nor a challenge: a message that cannot be decrypted. -/
def sendOpening (input : TaskInput) (peer : ValidatedPeer) : SendM Unit := do
  let c ← get
  let nonce ← Stateful.lift (Outcome.unwrap input.nonce .kNetworkSendFailed)
  modify fun c => { c with
    pendingRequests := c.pendingRequests.insert (endpointKeyOf peer.ip peer.udpPort)
      ⟨peer, findnodeReqId peer, nonce, [], .zero _, 0, false⟩ }
  let randomMsg ← Stateful.lift (Outcome.unwrap input.randomMsg .kNetworkSendFailed)
  let encoded ← orForget (endpointKeyOf peer.ip peer.udpPort) (encodePacket env input.iv kFlagMessage nonce
    (makeMessageAuthData (deriveNodeAddress env c.config.publicKey)) randomMsg.bytes
    (deriveNodeAddress env peer.nodeId))
  sendPacket env input encoded.packet peer

/-- `x`, its failure being counted. -/
def countFailure {α : Type} (x : SendM α) : SendM α := fun c =>
  match x c with
  | .ok a c' => .ok a c'
  | .error e c' =>
    .error e { c' with
      counters := { c'.counters with outboundHandshakeFailures := c'.counters.outboundHandshakeFailures + 1 } }

/-- The node's own record, when the other end does not have it. -/
def enrForChallenge (recordSeq : UInt64) : SendM Bytes :=
  if recordSeq.toNat < kInitialEnrSeq.toNat then buildLocalEnr env else pure []

/-- A handshake: the packet, and the session that it starts. -/
structure Handshake where
  packet : Bytes
  session : SessionState

/-- The handshake packet of `send_findnode`. The peer is the argument of the call where its address is concerned,
and the one in the pending request where its key is. -/
def makeHandshake (input : TaskInput) (peer : ValidatedPeer) (pending : PendingRequest) : SendM Handshake := do
  let c ← get
  let localNodeAddr := deriveNodeAddress env c.config.publicKey
  let remoteNodeAddr := deriveNodeAddress env peer.nodeId
  let eph ← Stateful.lift ((Rlpx.Ecdh.generateEphemeralKeypair env.toRlpxPrimitives input.keyDraws).mapError
    fun _ => .kContextCreationFailed)
  let ephCompressed ← Stateful.lift (compressPublicKey env eph.publicKey)
  let signature ← Stateful.lift (makeIdSignature env c.config.privateKey pending.challengeData ephCompressed.bytes
    remoteNodeAddr)
  let record ← enrForChallenge env pending.recordSeq
  let shared ← Stateful.lift (sharedSecretFromUncompressedPubkey env pending.peer.nodeId eph.privateKey)
  let keys := deriveSessionKeys env shared pending.challengeData localNodeAddr remoteNodeAddr
  let authData := makeHandshakeAuthData localNodeAddr signature.bytes ephCompressed.bytes record
  let plaintext ← Stateful.lift (makeFindnodePlaintext pending.reqId)
  let nonce ← Stateful.lift (Outcome.unwrap input.nonce .kNetworkSendFailed)
  let encoded ← Stateful.lift (encodePacket env input.iv kFlagHandshake nonce authData [] remoteNodeAddr)
  let encrypted ← Stateful.lift (encryptGcm env keys.writeKey nonce plaintext encoded.headerData)
  return ⟨encoded.packet ++ encrypted,
    ⟨keys.writeKey, keys.readKey, remoteNodeAddr, pending.peer.nodeId, pending.reqId⟩⟩

/-- `send_findnode` when a challenge has come in. -/
def sendHandshake (input : TaskInput) (peer : ValidatedPeer) (pending : PendingRequest) : SendM Unit := do
  count fun n => { n with outboundHandshakeAttempts := n.outboundHandshakeAttempts + 1 }
  countFailure do
    let handshake ← makeHandshake env input peer pending
    modify fun c => { c with
      sessions := c.sessions.insert (endpointKeyOf peer.ip peer.udpPort) handshake.session
      pendingRequests := c.pendingRequests.erase (endpointKeyOf peer.ip peer.udpPort) }
    sendPacket env input handshake.packet peer

/-- A request that is pending without a challenge is dropped. -/
def forgetUnchallenged (key : Bytes) (c : Discv5Client) : Discv5Client :=
  { c with pendingRequests := c.pendingRequests.erase key }

def sendFindnode (input : TaskInput) (peer : ValidatedPeer) : SendM Unit := fun c =>
  match c.sessions.lookup (endpointKeyOf peer.ip peer.udpPort) with
  | some session => sendOnSession env input peer session c
  | none => match c.pendingRequests.lookup (endpointKeyOf peer.ip peer.udpPort) with
    | some pending =>
      if pending.haveChallenge then sendHandshake env input peer pending c
      else sendOpening env input peer (forgetUnchallenged (endpointKeyOf peer.ip peer.udpPort) c)
    | none => sendOpening env input peer c

def sendWhoareyou (input : TaskInput) (sender : Endpoint) (remoteNodeAddr : NodeAddress)
    (requestNonce : GcmNonce) : SendM Unit := do
  let idNonce ← Stateful.lift (Outcome.unwrap input.idNonce .kNetworkSendFailed)
  let encoded ← Stateful.lift (encodePacket env input.iv kFlagWhoareyou requestNonce
    (idNonce.bytes ++ appendU64be 0) [] remoteNodeAddr)
  modify fun c => { c with
    sentChallenges := c.sentChallenges.insert (endpointKey env sender)
      ⟨remoteNodeAddr, encoded.headerData, requestNonce, idNonce, 0⟩ }
  socketSend input sender encoded.packet

def handleFindnodeRequest (input : TaskInput) (reqId : Bytes) (sender : Endpoint) : SendM Unit := do
  let c ← get
  let session ← Stateful.lift (Outcome.unwrap (c.sessions.lookup (endpointKey env sender)) .kNetworkSendFailed)
  let record ← buildLocalEnr env
  let plaintext ← Stateful.lift (makeNodesPlaintext reqId record)
  let packet ← Stateful.lift (sessionPacket env input (deriveNodeAddress env c.config.publicKey)
    session.remoteNodeAddr session.writeKey plaintext)
  sendPacket env input packet
    ⟨session.remoteNodeId, env.addressToString sender.address, sender.port, sender.port, none⟩

def noteFailure (peer : ValidatedPeer) (c : Discv5Client) : Discv5Client :=
  { c with
    counters := { c.counters with sendFindnodeFailures := c.counters.sendFindnodeFailures + 1 }
    crawler := c.crawler.markFailed peer.nodeId }

/-- A task, run from the client's state when its turn comes. -/
def runTask (input : TaskInput) : Task → Discv5Client → Discv5Client
  | .query peer, c => match sendFindnode env input peer c with
    | .ok _ c' => { c' with crawler := c'.crawler.markMeasured peer.nodeId }
    | .error _ c' => noteFailure peer c'
  | .retry peer, c => match sendFindnode env input peer c with
    | .ok _ c' => c'
    | .error _ c' => noteFailure peer c'
  | .sendWhoareyou sender remoteNodeAddr requestNonce, c =>
    match sendWhoareyou env input sender remoteNodeAddr requestNonce c with
    | .ok _ c' => c'
    | .error _ c' => c'
  | .handleFindnodeRequest reqId sender, c => match handleFindnodeRequest env input reqId sender c with
    | .ok _ c' => c'
    | .error _ c' => c'

/-! ## Packets -/

/-- A packet that is being handled. The handler returns early, with nothing to report, or the record parser reads
outside an object. -/
abbrev HandleM := EStateM (Fault Unit) Discv5Client

/-- The value of `x`; when it fails, `f` is done to the client and the handler returns. -/
def acceptOr {α : Type} (f : Discv5Client → Discv5Client) (x : Except EnrFault α) : HandleM α := fun c =>
  match x with
  | .ok a => .ok a c
  | .error (.error _) => .error (.error ()) (f c)
  | .error .outOfBounds => .error .outOfBounds c

/-- The handler counts something and returns unless `p` holds. -/
def require (f : Counters → Counters) (p : Prop) [Decidable p] : HandleM Unit := fun c =>
  if p then .ok () c else .error (.error ()) { c with counters := f c.counters }

def silently (c : Discv5Client) : Discv5Client := c

/-- `handle_packet` on a WHOAREYOU packet. -/
def handleWhoareyou (packet : PacketView) (key : Bytes) : HandleM Unit := do
  require id (packet.authSize.toNat = kWhoareyouAuthDataBytes)
  let c ← get
  let pending ← acceptOr silently (Outcome.unwrap (c.pendingRequests.lookup key) (.error .kNetworkReceiveFailed))
  require id (pending.requestNonce = packet.nonce)
  modify fun c => { c with
    pendingRequests := c.pendingRequests.insert key { pending with
      idNonce := .load _ packet.authData
      recordSeq := readU64be (packet.authData.drop kWhoareyouIdNonceBytes)
      challengeData := packet.headerData
      haveChallenge := true } }
  count fun n => { n with whoareyouPackets := n.whoareyouPackets + 1 }
  spawn (.retry pending.peer)

def handleNodes (session : SessionState) (body : Bytes) : HandleM Unit := do
  let nodes ← acceptOr silently (parseNodesMessage env.toEnrPrimitives body)
  require id (session.lastReqId = [] ∨ nodes.reqId = session.lastReqId)
  count fun n => { n with nodesPackets := n.nodesPackets + 1 }
  modify fun c => { c with
    crawler := (c.crawler.markMeasured session.remoteNodeId).ingestDiscoveredPeers nodes.peers }

/-- A message that was decrypted on a session: its first byte is its type. -/
def handlePlaintext (session : SessionState) (plaintext : Bytes) (sender : Endpoint) : HandleM Unit :=
  match plaintext with
  | [] => pure ()
  | msgType :: body =>
    if msgType = kMsgNodes then handleNodes env session body
    else if msgType = kMsgFindNode then do
      let reqId ← acceptOr silently ((parseFindnodeReqId body).mapError .error)
      spawn (.handleFindnodeRequest reqId sender)
    else pure ()

def handleSessionMessage (packet : PacketView) (session : SessionState) (sender : Endpoint) : HandleM Unit :=
  match decryptGcm env session.readKey packet.nonce packet.msgData packet.headerData with
  | .ok plaintext => handlePlaintext env session plaintext sender
  | .error _ => do
    count fun n => { n with inboundMessageDecryptFail := n.inboundMessageDecryptFail + 1 }
    spawn (.sendWhoareyou sender (.load _ packet.authData) packet.nonce)

/-- The session under `key`, if it is one with the node at `remoteNodeAddr`. -/
def sessionWith (c : Discv5Client) (key : Bytes) (remoteNodeAddr : NodeAddress) : Option SessionState :=
  (c.sessions.lookup key).filter fun session => session.remoteNodeAddr = remoteNodeAddr

/-- `handle_packet` on a message. -/
def handleMessage (packet : PacketView) (key : Bytes) (sender : Endpoint) : HandleM Unit := do
  count fun n => { n with inboundMessageSeen := n.inboundMessageSeen + 1 }
  require id (packet.authSize.toNat = kMessageAuthDataBytes)
  let c ← get
  match sessionWith c key (.load _ packet.authData) with
  | some session => handleSessionMessage env packet session sender
  | none => spawn (.sendWhoareyou sender (.load _ packet.authData) packet.nonce)

/-! The counters of the refused handshakes. -/

def rejectAuth (n : Counters) : Counters := { n with inboundHandshakeRejectAuth := n.inboundHandshakeRejectAuth + 1 }

def rejectChallenge (n : Counters) : Counters :=
  { n with inboundHandshakeRejectChallenge := n.inboundHandshakeRejectChallenge + 1 }

def rejectRecord (n : Counters) : Counters :=
  { n with inboundHandshakeRejectRecord := n.inboundHandshakeRejectRecord + 1 }

def rejectCrypto (n : Counters) : Counters :=
  { n with inboundHandshakeRejectCrypto := n.inboundHandshakeRejectCrypto + 1 }

def rejectDecrypt (n : Counters) : Counters :=
  { n with inboundHandshakeRejectDecrypt := n.inboundHandshakeRejectDecrypt + 1 }

def counting (f : Counters → Counters) (c : Discv5Client) : Discv5Client := { c with counters := f c.counters }

/-- The checks of a handshake, up to the keys: the session that it starts. -/
def acceptHandshake (packet : PacketView) (key : Bytes) : HandleM SessionState := do
  let auth ← acceptOr (counting rejectAuth) ((parseHandshakeAuth packet.authData).mapError .error)
  let c ← get
  let challenge ← acceptOr (counting rejectChallenge)
    (Outcome.unwrap (c.sentChallenges.lookup key) (.error .kNetworkReceiveFailed))
  require rejectChallenge (auth.srcId = challenge.remoteNodeAddr)
  require rejectRecord (auth.record ≠ [])
  let record ← acceptOr (counting rejectRecord) (EnrParser.decodeRlp env.toEnrPrimitives auth.record)
  let record ← acceptOr (counting rejectRecord) (EnrParser.verifySignature env.toEnrPrimitives record)
  require rejectRecord (deriveNodeAddress env record.nodeId = auth.srcId)
  let localId := deriveNodeAddress env c.config.publicKey
  require rejectRecord
    (verifyIdSignature env record.nodeId auth.signature challenge.challengeData auth.pubkey localId = true)
  let shared ← acceptOr (counting rejectCrypto)
    ((sharedSecretFromCompressedPubkey env auth.pubkey c.config.privateKey).mapError .error)
  let keys := deriveSessionKeys env shared challenge.challengeData auth.srcId localId
  return ⟨keys.readKey, keys.writeKey, auth.srcId, record.nodeId, []⟩

/-- A handshake that cannot be decrypted: the entry under its key is erased, whatever was there before. -/
def dropSession (key : Bytes) (c : Discv5Client) : Discv5Client :=
  counting rejectDecrypt { c with sessions := c.sessions.erase key }

def handleFirstMessage (key : Bytes) (session : SessionState) (plaintext : Bytes) (sender : Endpoint) : HandleM Unit :=
  match plaintext with
  | [] => pure ()
  | msgType :: body =>
    if msgType = kMsgFindNode then do
      let reqId ← acceptOr silently ((parseFindnodeReqId body).mapError .error)
      modify fun c => { c with sessions := c.sessions.insert key { session with lastReqId := reqId } }
      spawn (.handleFindnodeRequest reqId sender)
    else pure ()

/-- `handle_packet` on a handshake. -/
def handleHandshake (packet : PacketView) (key : Bytes) (sender : Endpoint) : HandleM Unit := do
  count fun n => { n with inboundHandshakeSeen := n.inboundHandshakeSeen + 1 }
  let session ← acceptHandshake env packet key
  modify fun c => { c with sessions := c.sessions.insert key session }
  let plaintext ← acceptOr (dropSession key)
    ((decryptGcm env session.readKey packet.nonce packet.msgData packet.headerData).mapError .error)
  count fun n => { n with handshakePackets := n.handshakePackets + 1 }
  modify fun c => { c with sentChallenges := c.sentChallenges.erase key }
  handleFirstMessage key session plaintext sender

/-- The body of `handle_packet`. -/
def handlePacketSteps (data : Bytes) (sender : Endpoint) : HandleM Unit := do
  let c ← get
  let packet ← acceptOr silently
    ((decodePacket env data (deriveNodeAddress env c.config.publicKey)).mapError .error)
  if packet.flag = kFlagWhoareyou then handleWhoareyou packet (endpointKey env sender)
  else if packet.flag = kFlagMessage then handleMessage env packet (endpointKey env sender) sender
  else if packet.flag = kFlagHandshake then handleHandshake env packet (endpointKey env sender) sender
  else pure ()

/-- `handle_packet`: the client afterwards, or `none` when the record parser reads outside an object. -/
def handlePacket (data : Bytes) (sender : Endpoint) (c : Discv5Client) : Option Discv5Client :=
  match handlePacketSteps env data sender c with
  | .ok _ c' => some c'
  | .error (.error _) c' => some c'
  | .error .outOfBounds _ => none

end DevP2P.Discv5
