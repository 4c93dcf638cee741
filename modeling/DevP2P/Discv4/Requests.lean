import DevP2P.Discv4.Client

/-!
# The requests of the client (`discv4/discv4_client.cpp`, `discv4_ping.cpp`, `discv4_enr_request.cpp`)

`ping`, `request_enr` and `find_node` are coroutines: each registers an entry for its reply, is suspended while its
packet is sent and again until its timer ends, and erases the entry. Between two suspensions a coroutine runs in one go.

* `requestPacket` : the packet of a request;
* `Call` : a call that has registered its entry; `Caller` : what goes on when it returns; `Coroutine`, `Discovery` : the
  state;
* `launch`, `complete` : a call up to its first suspension, and from its last one to its return;
* `ping`, `requestEnr`, `findNode`, `explore` : the coroutines, cut at their suspensions; `step`, `run` : all that can
  happen.
-/

namespace DevP2P.Discv4
open DevP2P.Lib DevP2P.Rlp

/-! ## Packets -/

def kProtocolVersion : UIntTy.Val .uint8 := 0x04

structure RequestPrimitives extends Discv4Primitives where
  /-- `asio::ip::make_address_v4`. -/
  makeAddressV4 : Bytes → Option IPv4
  /-- Whether `asio::ip::make_address` accepts a text; it throws otherwise. -/
  isAddress : Bytes → Bool

/-- The rest of `discv4Config`. -/
structure LocalNode where
  bindIp : Bytes
  bindPort : Uint16
  publicKey : NodeId
deriving DecidableEq

inductive RequestError
  | kNetworkSendFailed
  | kRlpPayloadEmpty
  | kSigningFailed
  | kPongTimeout
deriving DecidableEq

inductive RequestKind
  | ping
  | enrRequest
  | findNode (targetId : NodeId)
deriving DecidableEq

def RequestKind.replyType : RequestKind → UInt8
  | .ping => kPacketTypePong
  | .enrRequest => kPacketTypeEnrResponse
  | .findNode _ => kPacketTypeNeighbours

/-- `discv4_ping::Endpoint::encode`. -/
def encodeEndpoint (ip : IPv4) (udpPort tcpPort : Uint16) : EncodeM Bytes :=
  encodeListOf do
    addBytes ip.bytes
    addUInt udpPort
    addUInt tcpPort

/-- The list of a PING; each endpoint is encoded by an encoder of its own. -/
def encodePing (fromEp toEp : EncodeM Bytes) (expiration : Uint32) : EncodeM Bytes :=
  encodeListOf do
    addUInt kProtocolVersion
    let fromEncoded ← Stateful.lift (Stateful.outcome (fromEp RlpEncoder.new))
    addRaw fromEncoded
    let toEncoded ← Stateful.lift (Stateful.outcome (toEp RlpEncoder.new))
    addRaw toEncoded
    addUInt expiration

def encodeEnrRequest (expiration : Uint64) : EncodeM Bytes := encodeListOf (addUInt expiration)

def encodeFindNode (targetId : NodeId) (expiration : Uint32) : EncodeM Bytes :=
  encodeListOf do
    addBytes targetId.bytes
    addUInt expiration

/-- The type byte and the list that `encode` produces; nothing if it fails. -/
def rlpPayload (ptype : UInt8) (encode : EncodeM Bytes) : Bytes :=
  match Stateful.outcome (encode RlpEncoder.new) with
  | .ok bytes => ptype :: bytes
  | .error _ => []

section

variable (env : RequestPrimitives) (node : LocalNode)

/-- `discv4_ping::Endpoint`; an address that is not understood is four zero bytes. -/
def pingEndpoint (ip : Bytes) (udpPort tcpPort : Uint16) : EncodeM Bytes :=
  encodeEndpoint ((env.makeAddressV4 ip).getD (.zero 4)) udpPort tcpPort

def requestPayload (config : Discv4Config) (input : HandlerInput) (kind : RequestKind) (ip : Bytes) (port : Uint16) :
    Bytes :=
  match kind with
  | .ping => rlpPayload kPacketTypePing
      (encodePing (pingEndpoint env node.bindIp node.bindPort config.tcpPort) (pingEndpoint env ip port port)
        (expirationAt input))
  | .enrRequest => rlpPayload kPacketTypeEnrRequest
      (encodeEnrRequest (BitVec.ofNat _ (input.unixTime + kPacketExpirySeconds)))
  | .findNode targetId => rlpPayload kPacketTypeFindNode (encodeFindNode targetId (expirationAt input))

/-- The packet of a request. `find_node` does not report why it has none. -/
def requestPacket (config : Discv4Config) (input : HandlerInput) (kind : RequestKind) (ip : Bytes) (port : Uint16) :
    Except RequestError Bytes := do
  let payload := requestPayload env node config input kind ip port
  rejectIf (payload = []) .kRlpPayloadEmpty
  (signPacket env.toDiscv4Primitives config.privateKey payload).mapError fun _ => .kSigningFailed

end

/-! ## State -/

/-- A call that has registered its entry. -/
structure Call where
  kind : RequestKind
  ip : Bytes
  port : Uint16
  /-- The number of its timer and of its slot. -/
  id : Nat
  packet : Bytes
deriving DecidableEq

/-- What a call returns; `find_node` returns nothing. -/
inductive Reply
  | pong (pong : Discv4Pong)
  | enrResponse (response : Discv4EnrResponse)
  | void
deriving DecidableEq

namespace Call

variable (call : Call)

def key : Bytes := replyKey call.ip call.port call.kind.replyType

/-- `sent_hash`. -/
def sentHash : Hash := .load 32 call.packet

/-- The entry of the call in `pending_replies_`. -/
def entry : PendingReply :=
  match call.kind with
  | .ping => ⟨call.id, some call.id, none, call.sentHash⟩
  | .enrRequest => ⟨call.id, none, some call.id, call.sentHash⟩
  | .findNode _ => ⟨call.id, none, none, .zero 32⟩

/-- What the call returns when its wait ends: a slot that was not filled has no expiration and no record. -/
def outcome (c : Discv4Client) : Except RequestError Reply :=
  match call.kind with
  | .ping =>
    match c.pongSlots.lookup call.id with
    | none => .error .kPongTimeout
    | some pong => if pong.expiration ≠ 0 then .ok (.pong pong) else .error .kPongTimeout
  | .enrRequest =>
    match c.enrSlots.lookup call.id with
    | none => .error .kPongTimeout
    | some response => if response.recordRlp ≠ [] then .ok (.enrResponse response) else .error .kPongTimeout
  | .findNode _ => .ok .void

def sendFailed : Except RequestError Reply :=
  match call.kind with
  | .findNode _ => .ok .void
  | _ => .error .kNetworkSendFailed

end Call

/-- What goes on when a call returns. -/
inductive Caller
  /-- The user's code, or the end of a task. -/
  | outside
  /-- `find_node` behind `ensure_bond`. -/
  | findNode (targetId : NodeId)
  /-- The task of a new neighbour behind `ensure_bond`. -/
  | enrich (peer : DiscoveredPeer)
  /-- The same task behind `request_enr`. -/
  | report (peer : DiscoveredPeer)
deriving DecidableEq

/-- A suspended coroutine. -/
inductive Coroutine
  /-- A PONG is being sent; `find_node` follows. -/
  | answering (ip : Bytes) (port : Uint16)
  /-- The packet of a call is being sent, or the call waits for its timer. -/
  | request (call : Call) (sending : Bool) (caller : Caller)
deriving DecidableEq

/-- What can be seen of the client from outside. -/
inductive Event
  /-- `async_send_to`. -/
  | sent (packet ip : Bytes) (port : Uint16)
  /-- A packet that `handle_packet` is given, and the time by `std::time`. -/
  | received (unixTime : Nat) (data : Bytes) (sender : Endpoint)
  /-- A call has returned; one that has not registered an entry has no number. -/
  | returned (id : Option Nat) (result : Except RequestError Reply)
  /-- The callback for new peers. -/
  | discovered (peer : Candidate)
deriving DecidableEq

structure Discovery where
  client : Discv4Client
  coroutines : List Coroutine := []
  /-- The number of the next timer. -/
  nextId : Nat := 0
  /-- An exception has left a function that is `noexcept`. -/
  terminated : Bool := false
  /-- What has happened so far. -/
  trace : List Event := []
deriving DecidableEq

namespace Discovery

variable (env : RequestPrimitives) (node : LocalNode) (input : HandlerInput)

/-! ## A call -/

def emit (event : Event) (d : Discovery) : Discovery := { d with trace := d.trace ++ [event] }

/-- `pending_replies_[key] = entry`. -/
def register (call : Call) (d : Discovery) : Discovery :=
  { d with
    client := { d.client with pendingReplies := d.client.pendingReplies.insert call.key call.entry }
    nextId := d.nextId + 1 }

/-- A call registers its entry and sends its packet, where it is suspended. If the address cannot be read the call
throws, and the entry stays; `ensure_bond` lets no exception through. -/
def launch (kind : RequestKind) (ip : Bytes) (port : Uint16) (caller : Caller) (packet : Bytes) (d : Discovery) :
    Discovery :=
  let call : Call := ⟨kind, ip, port, d.nextId, packet⟩
  let d := d.register call
  if env.isAddress ip then
    emit (.sent packet ip port) { d with coroutines := d.coroutines ++ [.request call true caller] }
  else { d with terminated := kind = .ping ∧ caller ≠ .outside }

/-- The call of the coroutine `k` returns: its entry is erased, and an endpoint that has answered a PING is bonded. -/
def complete (k : Nat) (call : Call) (result : Except RequestError Reply) (d : Discovery) : Discovery :=
  let client := { d.client with pendingReplies := d.client.pendingReplies.erase call.key }
  let client :=
    match result with
    | .ok (.pong _) => { client with bondedSet := insert (endpointKey call.ip call.port) client.bondedSet }
    | _ => client
  emit (.returned (some call.id) result) { d with client, coroutines := d.coroutines.eraseIdx k }

/-! ## The coroutines up to their first suspension -/

/-- `ping` and `request_enr`; `next` goes on when the call returns without a wait. -/
def startCall (kind : RequestKind) (ip : Bytes) (port : Uint16) (caller : Caller) (next : Discovery → Discovery)
    (d : Discovery) : Discovery :=
  if d.client.running then
    match requestPacket env node d.client.config input kind ip port with
    | .error e => next (d.emit (.returned none (.error e)))
    | .ok packet => d.launch env kind ip port caller packet
  else next (d.emit (.returned none (.error .kNetworkSendFailed)))

def ping (ip : Bytes) (port : Uint16) : Discovery → Discovery := startCall env node input .ping ip port .outside id

def requestEnr (ip : Bytes) (port : Uint16) : Discovery → Discovery :=
  startCall env node input .enrRequest ip port .outside id

def ensureBond (ip : Bytes) (port : Uint16) (caller : Caller) (next : Discovery → Discovery) (d : Discovery) :
    Discovery :=
  if endpointKey ip port ∈ d.client.bondedSet then next d
  else startCall env node input .ping ip port caller next d

/-- `find_node` behind `ensure_bond`; whether the client still runs is not checked again. -/
def askNeighbours (ip : Bytes) (port : Uint16) (targetId : NodeId) (d : Discovery) : Discovery :=
  match requestPacket env node d.client.config input (.findNode targetId) ip port with
  | .error _ => d.emit (.returned none (.ok .void))
  | .ok packet => d.launch env (.findNode targetId) ip port .outside packet

def findNode (ip : Bytes) (port : Uint16) (targetId : NodeId) (d : Discovery) : Discovery :=
  if d.client.running then d.ensureBond env node input ip port (.findNode targetId)
    (askNeighbours env node input ip port targetId)
  else d.emit (.returned none (.ok .void))

/-- The callback with what the record says, then `find_node`. -/
def report (peer : DiscoveredPeer) (response : Option Discv4EnrResponse) (d : Discovery) : Discovery :=
  let ethForkId := response.bind fun response => (parseEthForkId response.recordRlp).toOption
  (d.emit (.discovered { peer with ethForkId })).findNode env node input peer.ip peer.udpPort peer.nodeId

def enrich (peer : DiscoveredPeer) : Discovery → Discovery :=
  startCall env node input .enrRequest peer.ip peer.udpPort (.report peer) (report env node input peer none)

/-- The task that `handle_neighbours` spawns for a new node. -/
def explore (peer : DiscoveredPeer) (d : Discovery) : Discovery :=
  d.ensureBond env node input peer.ip peer.udpPort (.enrich peer) (enrich env node input peer)

/-- A task that was spawned runs. -/
def runTask (d : Discovery) : Task → Discovery
  | .answerPing ip port packet =>
    if env.isAddress ip then emit (.sent packet ip port) { d with
      coroutines := d.coroutines ++ [.answering ip port] } else d
  | .exploreNeighbour peer => d.explore env node input peer

/-! ## The coroutines behind a suspension -/

/-- A call has returned `result` to its caller. The insertion of `ensure_bond` into the bonded set repeats the one of
`ping`. -/
def resume (call : Call) (caller : Caller) (result : Except RequestError Reply) (d : Discovery) : Discovery :=
  match caller with
  | .outside => d
  | .findNode targetId => d.askNeighbours env node input call.ip call.port targetId
  | .enrich peer => d.enrich env node input peer
  | .report peer =>
    match result with
    | .ok (.enrResponse response) => d.report env node input peer (some response)
    | _ => d.report env node input peer none

/-- `async_send_to` of the coroutine `k` is over. -/
def sendReturns (k : Nat) (ok : Bool) (d : Discovery) : Discovery :=
  match d.coroutines[k]? with
  | some (.answering ip port) =>
    let d := { d with coroutines := d.coroutines.eraseIdx k }
    if ok then d.findNode env node input ip port node.publicKey else d
  | some (.request call true caller) =>
    if ok then { d with coroutines := d.coroutines.set k (.request call false caller) }
    else (d.complete k call call.sendFailed).resume env node input call caller call.sendFailed
  | _ => d

/-- The wait of the coroutine `k` is over: its timer has expired or was cancelled. -/
def waitReturns (k : Nat) (d : Discovery) : Discovery :=
  match d.coroutines[k]? with
  | some (.request call false caller) =>
    (d.complete k call (call.outcome d.client)).resume env node input call caller (call.outcome d.client)
  | _ => d

/-- A packet arrives; the loop that receives packets ends when the client is stopped. -/
def receive (data : Bytes) (sender : Endpoint) (d : Discovery) : Discovery :=
  if d.client.running then
    emit (.received input.unixTime data sender)
      { d with client := Stateful.finalState (handlePacket env.toDiscv4Primitives input data sender d.client) }
  else d

def stop (d : Discovery) : Discovery :=
  let timers := (List.range d.nextId).filter fun timer => d.client.pendingReplies.any fun _ entry => entry.timer = timer
  { d with client := { d.client with running := false, cancelled := d.client.cancelled ++ timers, pendingReplies :=
    ∅ } }

end Discovery

/-! ## Runs -/

/-- What can happen to a client; a coroutine and a task are named by their places. -/
inductive DiscoveryAction
  | ping (ip : Bytes) (port : Uint16)
  | requestEnr (ip : Bytes) (port : Uint16)
  | findNode (ip : Bytes) (port : Uint16) (targetId : NodeId)
  | runTask (k : Nat)
  | sendReturns (k : Nat) (ok : Bool)
  | waitReturns (k : Nat)
  | receive (data : Bytes) (sender : Endpoint)
  | stop

namespace Discovery

variable (env : RequestPrimitives) (node : LocalNode)

def act (input : HandlerInput) (d : Discovery) : DiscoveryAction → Discovery
  | .ping ip port => d.ping env node input ip port
  | .requestEnr ip port => d.requestEnr env node input ip port
  | .findNode ip port targetId => d.findNode env node input ip port targetId
  | .runTask k =>
    match d.client.tasks[k]? with
    | none => d
    | some task => runTask env node input { d with client := { d.client with tasks := d.client.tasks.eraseIdx k } } task
  | .sendReturns k ok => d.sendReturns env node input k ok
  | .waitReturns k => d.waitReturns env node input k
  | .receive data sender => d.receive env input data sender
  | .stop => d.stop

/-- One action, with what the clocks say; a process that has terminated does nothing. -/
def step (d : Discovery) (action : HandlerInput × DiscoveryAction) : Discovery :=
  if d.terminated then d else d.act env node action.1 action.2

def init (config : Discv4Config) : Discovery where
  client :=
    { config
      running := true
      peers := ∅
      pendingReplies := ∅
      bondedSet := ∅
      discoveredSet := ∅
      pongSlots := ∅
      enrSlots := ∅
      cancelled := []
      tasks := [] }

def run (config : Discv4Config) (actions : List (HandlerInput × DiscoveryAction)) : Discovery :=
  actions.foldl (step env node) (init config)

theorem run_concat (config : Discv4Config) (actions : List (HandlerInput × DiscoveryAction))
    (action : HandlerInput × DiscoveryAction) :
    run env node config (actions ++ [action]) = step env node (run env node config actions) action := by
  rw [run, List.foldl_append]
  rfl

end Discovery

end DevP2P.Discv4
