import DevP2P.Discv4.Packets
import Mathlib.Data.Finmap

/-!
# The client of discovery v4 (`discv4/discv4_client.cpp`)

The client runs on one thread: a packet is handled in one go, and what a handler spawns runs later. A request that waits
for its reply has an entry under the text of the endpoint and the type of the reply, with a timer and a slot for the
reply; the handler of the reply fills the slot and cancels the timer.

* `Discv4Client` : the state, with the tasks that were spawned and the timers that were cancelled;
* `handlePing`, `handlePong`, `handleNeighbours`, `handleEnrResponse` : the handlers; `handlePacket` selects one;
* `neighboursLoop` : the loop over the nodes of a NEIGHBOURS packet.
-/

namespace DevP2P.Discv4
open DevP2P.Lib DevP2P.Rlp

/-! ## State -/

/-- The sender of a packet; the socket is one of version 4. -/
structure Endpoint where
  address : IPv4
  port : Uint16
deriving DecidableEq

structure DiscoveredPeer where
  nodeId : NodeId
  ip : Bytes
  udpPort : Uint16
  tcpPort : Uint16
  lastSeen : Nat
deriving DecidableEq

/-- A discovered peer with the fork id of its record, which the client adds before it reports the peer. -/
structure Candidate extends DiscoveredPeer where
  ethForkId : Option ForkId
deriving DecidableEq

structure Discv4Config where
  tcpPort : Uint16
  privateKey : FixedBytes 32
deriving DecidableEq

/-- An entry of `pending_replies_`. The pointers are numbers, `none` being the null pointer. -/
structure PendingReply where
  timer : Nat
  pong : Option Nat
  enrResponse : Option Nat
  expectedHash : Hash
deriving DecidableEq

/-- What a handler gives to `asio::spawn`. -/
inductive Task
  /-- The PONG is sent, then a FIND_NODE. -/
  | answerPing (ip : Bytes) (port : Uint16) (packet : Bytes)
  /-- A node is bonded with, and asked for its record and its neighbours. -/
  | exploreNeighbour (peer : DiscoveredPeer)
deriving DecidableEq

/-- A table under texts. -/
abbrev Table (α : Type) := Finmap (fun _ : Bytes => α)

structure Discv4Client where
  config : Discv4Config
  running : Bool
  peers : Table DiscoveredPeer
  pendingReplies : Table PendingReply
  bondedSet : Finset Bytes
  discoveredSet : Finset Bytes
  /-- The slots that wait for a PONG, and those that wait for an ENR response. -/
  pongSlots : Finmap (fun _ : Nat => Discv4Pong)
  enrSlots : Finmap (fun _ : Nat => Discv4EnrResponse)
  /-- The timers that were cancelled. -/
  cancelled : List Nat
  /-- The tasks that were spawned. -/
  tasks : List Task
deriving DecidableEq

/-- What the handlers get from the clocks: `std::time`, and the steady clock at each node of a NEIGHBOURS packet. -/
structure HandlerInput where
  unixTime : Nat
  steadyTime : Nat → Nat

/-- `std::to_string`. -/
def decimal (n : Nat) : Bytes := ascii (Nat.toDigits 10 n)

/-- `ip + ":" + std::to_string(port)`. -/
def endpointKey (ip : Bytes) (port : Uint16) : Bytes := ip ++ ascii [':'] ++ decimal port.toNat

/-- `discv4_client::reply_key`. -/
def replyKey (ip : Bytes) (port : Uint16) (ptype : UInt8) : Bytes :=
  endpointKey ip port ++ ascii [':'] ++ decimal ptype.toNat

def hexByte (b : UInt8) : Bytes :=
  [b.toNat / 16, b.toNat % 16].map fun d => UInt8.ofNat (if d < 10 then 0x30 + d else 0x61 + (d - 10))

/-- The key of a peer: its node id in hexadecimal digits. -/
def nodeKey (nodeId : NodeId) : Bytes := nodeId.bytes.flatMap hexByte

def ipText (ip : Bytes) : Bytes :=
  decimal (Bytes.at ip 0).toNat ++ ascii ['.'] ++ decimal (Bytes.at ip 1).toNat ++ ascii ['.'] ++
    decimal (Bytes.at ip 2).toNat ++ ascii ['.'] ++ decimal (Bytes.at ip 3).toNat

/-! ## Handlers -/

/-- A packet that is being handled. A handler returns early, with nothing to report, or uses a null pointer. -/
abbrev HandleM := EStateM (Fault Unit) Discv4Client

/-- The value of `x`; when it fails, the handler returns. -/
def orReturn {ε α : Type} (x : Except ε α) : HandleM α := fun c =>
  match x with
  | .ok a => .ok a c
  | .error _ => .error (.error ()) c

def spawn (task : Task) : HandleM Unit := modify fun c => { c with tasks := c.tasks ++ [task] }

def cancel (timer : Nat) : HandleM Unit := modify fun c => { c with cancelled := c.cancelled ++ [timer] }

variable (env : Discv4Primitives)

/-- `static_cast<uint32_t>(std::time(nullptr)) + kPacketExpirySeconds`. -/
def expirationAt (input : HandlerInput) : Uint32 := BitVec.ofNat _ (input.unixTime + kPacketExpirySeconds)

def handlePing (input : HandlerInput) (data : Bytes) (sender : Endpoint) : HandleM Unit := do
  rejectIf (data.length < kWireHeaderSize) (.error ())
  let pingHash := FixedBytes.load 32 data
  let c ← get
  let bytes ← orReturn (Stateful.outcome
    (encodePong sender.address sender.port c.config.tcpPort pingHash (expirationAt input) RlpEncoder.new))
  let signedPacket ← orReturn (signPacket env c.config.privateKey (kPacketTypePong :: bytes))
  let ip := env.addressToString sender.address
  modify fun c => { c with bondedSet := insert (endpointKey ip sender.port) c.bondedSet }
  spawn (.answerPing ip sender.port signedPacket)

/-- The entry that waits for a reply of type `ptype` from the sender. -/
def pendingReply (sender : Endpoint) (ptype : UInt8) (c : Discv4Client) : Option PendingReply :=
  c.pendingReplies.lookup (replyKey (env.addressToString sender.address) sender.port ptype)

/-- A reply with the hash that its entry waits for is put in the slot of the entry, and the timer of the entry is
cancelled. -/
def acceptReply {R : Type} (ptype : UInt8) (parse : Bytes → Except DecodingError R) (token : R → Hash)
    (slotOf : PendingReply → Option Nat) (store : Nat → R → Discv4Client → Discv4Client) (data : Bytes)
    (sender : Endpoint) : HandleM Unit := do
  rejectIf (data.length < kWireHeaderSize) (.error ())
  let reply ← orReturn (parse data)
  let c ← get
  let entry ← orReturn (Outcome.unwrap (pendingReply env sender ptype c) ())
  rejectIf (token reply ≠ entry.expectedHash) (.error ())
  -- `*it->second.pong = ..`
  let slot ← Stateful.lift (Outcome.unwrap (slotOf entry) .outOfBounds)
  modify (store slot reply)
  cancel entry.timer

def storePong (slot : Nat) (pong : Discv4Pong) (c : Discv4Client) : Discv4Client :=
  { c with pongSlots := c.pongSlots.insert slot pong }

def storeEnrResponse (slot : Nat) (response : Discv4EnrResponse) (c : Discv4Client) : Discv4Client :=
  { c with enrSlots := c.enrSlots.insert slot response }

def handlePong : Bytes → Endpoint → HandleM Unit :=
  acceptReply env kPacketTypePong parsePong Discv4Pong.pingHash PendingReply.pong storePong

def handleEnrResponse : Bytes → Endpoint → HandleM Unit :=
  acceptReply env kPacketTypeEnrResponse parseEnrResponse Discv4EnrResponse.requestHash PendingReply.enrResponse
    storeEnrResponse

structure NodeEntry where
  ip : Bytes
  udpPort : Uint16
  tcpPort : Uint16
  nodeId : NodeId
deriving DecidableEq

/-- The loop that skips the items of `view`, with room for `fuel` items; what it leaves. -/
def skipItems : Nat → ByteView → ByteView
  | 0, view => view
  | fuel + 1, view =>
    if view.isEmpty then view
    else match skipItem ⟨view⟩ with
      | .ok _ d => skipItems fuel d.view
      | .error _ d => d.view

def readNode : DecodeM NodeEntry := do
  let nodeLen ← readListHeaderBytes
  let nodeStart ← get
  let ip ← readBytes
  rejectIf (ip.length ≠ kIPv4Size) .kUnexpectedLength
  let udpPort ← readUInt .uint16
  let tcpPort ← readUInt .uint16
  let pubkey ← readBytes
  rejectIf (pubkey.length ≠ kNodeIdSize) .kUnexpectedLength
  let d ← get
  let nodeConsumed := nodeStart.view.length - d.view.length
  if nodeConsumed < nodeLen then
    let skipView := d.view.take (nodeLen - nodeConsumed)
    let left := skipItems skipView.length skipView
    set (RlpDecoder.mk (d.view.drop (skipView.length - left.length)))
  return ⟨ip, udpPort, tcpPort, .load _ pubkey⟩

/-- A node that listens is recorded; one that is new is explored. -/
def recordNode (lastSeen : Nat) (node : NodeEntry) (c : Discv4Client) : Discv4Client :=
  if node.tcpPort = 0 then c
  else
    let peer : DiscoveredPeer := ⟨node.nodeId, ipText node.ip, node.udpPort, node.tcpPort, lastSeen⟩
    let c := { c with peers := c.peers.insert (nodeKey node.nodeId) peer }
    let epKey := endpointKey peer.ip peer.udpPort
    if c.running ∧ epKey ∉ c.discoveredSet then
      { c with discoveredSet := insert epKey c.discoveredSet, tasks := c.tasks ++ [.exploreNeighbour peer] }
    else c

/-- The loop of `handle_neighbours` over the `nodesLen` bytes that start where `nodesStart` bytes are left, with room
for `fuel` nodes; it ends at the first node that it cannot read. -/
def neighboursLoop (input : HandlerInput) (nodesStart nodesLen : Nat) :
    Nat → Nat → RlpDecoder → Discv4Client → Discv4Client
  | 0, _, _, c => c
  | fuel + 1, i, d, c =>
    if d.isFinished ∨ nodesLen ≤ nodesStart - d.view.length then c
    else match readNode d with
      | .ok node d => neighboursLoop input nodesStart nodesLen fuel (i + 1) d (recordNode (input.steadyTime i) node c)
      | .error _ _ => c

/-- The nodes of a NEIGHBOURS packet: the decoder at the first of them, and how many bytes they take. -/
def readNodes : DecodeM Nat := do
  let _ ← readListHeaderBytes
  readListHeaderBytes

def handleNeighbours (input : HandlerInput) (data : Bytes) (sender : Endpoint) : HandleM Unit := do
  rejectIf (data.length < kWireHeaderSize) (.error ())
  let c ← get
  let entry ← orReturn (Outcome.unwrap (pendingReply env sender kPacketTypeNeighbours c) ())
  cancel entry.timer
  match readNodes ⟨data.drop kWireHeaderSize⟩ with
  | .error _ _ => return ()
  | .ok nodesLen d => modify (neighboursLoop input d.view.length nodesLen d.view.length 0 d)

/-- A FIND_NODE is not answered. -/
def handleFindNode : HandleM Unit := return ()

/-- There is no local record to answer with. -/
def handleEnrRequest : HandleM Unit := return ()

/-- `discv4_client::handle_packet`. -/
def handlePacket (input : HandlerInput) (data : Bytes) (sender : Endpoint) : HandleM Unit := do
  rejectIf (data.length < kWireHeaderSize) (.error ())
  let packetType := Bytes.at data kWirePacketTypeOffset
  if packetType = kPacketTypePing then handlePing env input data sender
  else if packetType = kPacketTypePong then handlePong env data sender
  else if packetType = kPacketTypeFindNode then handleFindNode
  else if packetType = kPacketTypeNeighbours then handleNeighbours env input data sender
  else if packetType = kPacketTypeEnrRequest then handleEnrRequest
  else if packetType = kPacketTypeEnrResponse then handleEnrResponse env data sender
  -- an unknown type is reported to the error callback only
  else return ()

end DevP2P.Discv4
