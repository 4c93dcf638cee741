import DevP2P.Rlpx.ControlMessages
import DevP2P.Rlpx.SessionState

/-!
# Sessions at work (`rlpx/rlpx_session.cpp`)

`connect` sends a Hello, waits for the first message of the peer and starts the two loops. The send loop takes messages
from a channel that `post_message` fills, the receive loop routes what arrives and fills a channel that
`receive_message` empties. The calls and the loops run interleaved; each is cut where another can come in between. The
other end of the connection takes the same steps.

* `SessionConnectParams.hello` : what `connect` says of its own end;
* `RlpxSession` : a session, with its channels and the points at which its loops and its callers are;
* `sendHello`, `receiveHello` : the last steps of `connect`; `stepSend`, `stepReceive` : the loops; `beginCall`,
  `finishCall` : `post_message` and `receive_message`; `stepDisconnect`;
* `Connection`, `Connection.step` : two sessions and the bytes between them, which arrive in order and in pieces;
* `SessionEvent` : what happens at an end; `openedIn`, `postedIn`, `sentIn`, `receivedIn`, `pulledIn`, `handledIn`.
-/

namespace DevP2P.Rlpx
open DevP2P.Lib DevP2P.Rlp

def kEthProtocolVersion67 : UIntTy.Val .uint8 := 67
def kEthProtocolVersion68 : UIntTy.Val .uint8 := 68

/-- What `connect` is called with, as far as it goes into the Hello. -/
structure SessionConnectParams where
  clientId : Bytes
  listenPort : UIntTy.Val .uint16
  localPublicKey : PublicKey

/-- The Hello of `connect`. -/
def SessionConnectParams.hello (params : SessionConnectParams) : HelloMessage where
  protocolVersion := kProtocolVersion
  clientId := params.clientId
  capabilities := [⟨ethName, kEthProtocolVersion66⟩, ⟨ethName, kEthProtocolVersion67⟩, ⟨ethName, kEthProtocolVersion68⟩,
    ⟨ethName, kEthProtocolVersion69⟩]
  listenPort := params.listenPort
  nodeId := params.localPublicKey

/-! ## One end -/

/-- Where `connect` is, behind the handshake. -/
inductive ConnectPoint
  | sendHello
  | awaitHello
  | opened
  | failed (error : SessionError)
deriving DecidableEq

/-- Where a round of the send loop is. -/
inductive SendPoint
  | popping
  /-- The channel was empty; the timer runs. -/
  | polling
  | sending (message : Message)
deriving DecidableEq

/-- Where a round of the receive loop is. -/
inductive ReceivePoint
  | reading
  /-- The handlers have been called; the message is not in the channel yet. -/
  | routed (message : Message)
deriving DecidableEq

/-- The calls that the user of a session makes. -/
inductive ApiCall
  | post (message : Message)
  | receive
deriving DecidableEq

structure RlpxSession where
  /-- What the session sends first. -/
  hello : HelloMessage
  point : ConnectPoint
  /-- The state, the calls of `disconnect` and the two loops. -/
  control : Session
  stream : MessageStream
  /-- Nothing more arrives: the peer has closed the connection, it has failed, or the socket was closed. -/
  ended : Bool
  info : SessionInfo
  sendChannel : List Message
  recvChannel : List Message
  sendPoint : SendPoint
  receivePoint : ReceivePoint
  /-- The calls that have found the session active, by number. -/
  calls : Nat → Option ApiCall
  handlers : Handlers

inductive SessionEvent
  /-- The Hello was written. -/
  | greeted
  /-- `connect` returns the session. -/
  | opened (info : SessionInfo)
  /-- `post_message` returns success. -/
  | posted (message : Message)
  /-- `receive_message` returns a message. -/
  | pulled (message : Message)
  /-- `post_message` or `receive_message` returns an error. -/
  | refused (error : SessionError)
  /-- The send loop has written a message. -/
  | sent (message : Message)
  /-- The receive loop has read a message. -/
  | received (message : Message)
  | handled (call : HandlerCall)
deriving DecidableEq

/-- What the user of a session does, and the steps of its loops. -/
inductive SessionUse
  /-- A call of `post_message` or `receive_message` looks at the state. -/
  | call (i : Nat) (call : ApiCall)
  /-- It goes on to the channel. -/
  | finish (i : Nat)
  | disconnect (i : Nat) (spurious : Bool)
  /-- The next step of the send loop; the timer ends with or without an error. -/
  | send (timerOk : Bool)
  /-- The next step of the receive loop. -/
  | receive
deriving DecidableEq

inductive EndAction
  | connect
  | use (use : SessionUse)
  /-- Nothing more arrives, and what has arrived is lost but for `keep` bytes. -/
  | cut (keep : Nat) (error : SocketError)
  /-- Writing fails after `limit` more bytes. -/
  | breakWrites (limit : Nat) (error : SocketError)
deriving DecidableEq

def Session.advance (s : Session) (which : SessionLoop) (succeeds : Bool) : Session := (s.step (.loop which succeeds)).1

/-- `MessageStream::close`: the socket is shut down in both directions. -/
def MessageStream.close (s : MessageStream) : MessageStream :=
  { s with
    transport := { s.transport with incoming := [], readError := .operationAborted, writeLimit := some 0, writeError :=
      .other } }

variable (env : RlpxPrimitives) (codec : SnappyCodec)

/-- The bytes that the next `receive_message` reads have arrived. -/
def MessageStream.frameArrived (s : MessageStream) : Bool :=
  kFrameHeaderWithMacSize ≤ s.transport.incoming.length &&
    match decryptHeader env (.load _ s.transport.incoming) (.load _ (s.transport.incoming.drop kFrameHeaderSize))
      s.cipher.ingress with
    | .error _ _ => true
    | .ok n _ => kFrameHeaderWithMacSize + (n + framePadding n + kMacSize) ≤ s.transport.incoming.length

namespace RlpxSession

/-- A session behind the handshake. Until the peer's Hello arrives it knows of the peer what its own parameters say. -/
def new (hello : HelloMessage) (handlers : Handlers) (secrets : FrameSecrets) : RlpxSession where
  hello := hello
  point := .sendHello
  control := .start .kUninitialized
  stream :=
    { cipher := .new secrets
      transport := ⟨[], .eof, [], none, .brokenPipe⟩
      compressionEnabled := false }
  ended := false
  info := ⟨hello.clientId, hello.listenPort, 0, false⟩
  sendChannel := []
  recvChannel := []
  sendPoint := .popping
  receivePoint := .reading
  calls _ := none
  handlers := handlers

def canRead (s : RlpxSession) : Bool := s.ended || s.stream.frameArrived env

/-! ### `connect` -/

/-- Step 5 of `connect`. -/
def sendHello (s : RlpxSession) : RlpxSession × List SessionEvent :=
  match s.hello.encode with
  | .error _ => ({ s with point := .failed .kHandshakeFailed }, [])
  | .ok payload =>
    match sendMessage env codec.toSnappy ⟨kHelloMessageId, payload⟩ s.stream with
    | .error e stream => ({ s with stream, point := .failed e }, [])
    | .ok _ stream => ({ s with stream, point := .awaitHello }, [.greeted])

/-- Steps 6 and 7 of `connect`: the session is active, and both loops are in front of their first round. -/
def receiveHello (s : RlpxSession) : RlpxSession × List SessionEvent :=
  if s.canRead env then
    match receiveMessage env codec s.stream with
    | .error e stream => ({ s with stream, point := .failed e }, [])
    | .ok peerMsg stream =>
      match handleFirstMessage peerMsg s.info with
      | .error e => ({ s with stream, point := .failed e }, [])
      | .ok info =>
        ({ s with
            point := .opened
            control := { s.control with state := .kActive }
            stream := { stream with compressionEnabled := info.compressionEnabled }
            info }, [.opened info])
  else (s, [])

def stepConnect (s : RlpxSession) : RlpxSession × List SessionEvent :=
  match s.point with
  | .sendHello => s.sendHello env codec
  | .awaitHello => s.receiveHello env codec
  | .opened => (s, [])
  | .failed _ => (s, [])

/-! ### The loops -/

/-- The next step of `run_send_loop`. -/
def stepSend (timerOk : Bool) (s : RlpxSession) : RlpxSession × List SessionEvent :=
  if s.control.loops .send = .body then
    match s.sendPoint with
    | .popping =>
      match s.sendChannel with
      | [] => ({ s with sendPoint := .polling }, [])
      | message :: rest => ({ s with sendPoint := .sending message, sendChannel := rest }, [])
    | .polling => ({ s with sendPoint := .popping, control := s.control.advance .send timerOk }, [])
    | .sending message =>
      match sendMessage env codec.toSnappy ⟨message.id, message.payload⟩ s.stream with
      | .error _ stream => ({ s with stream, sendPoint := .popping, control := s.control.advance .send false }, [])
      | .ok _ stream => ({ s with stream, sendPoint := .popping, control := s.control.advance .send true },
        [.sent message])
  else ({ s with control := s.control.advance .send true }, [])

/-- The next step of `run_receive_loop`. -/
def stepReceive (s : RlpxSession) : RlpxSession × List SessionEvent :=
  if s.control.loops .receive = .body then
    match s.receivePoint with
    | .reading =>
      if s.canRead env then
        match receiveMessage env codec s.stream with
        | .error _ stream => ({ s with stream, control := s.control.advance .receive false }, [])
        | .ok message stream =>
          ({ s with stream, receivePoint := .routed message },
            .received message :: (routeMessage s.handlers message).map .handled)
      else (s, [])
    | .routed message =>
      ({ s with
          receivePoint := .reading
          recvChannel := s.recvChannel ++ [message]
          control := s.control.advance .receive true }, [])
  else ({ s with control := s.control.advance .receive true }, [])

/-! ### The calls -/

/-- The error of a call that does not find the session active. -/
def refusal (state : SessionState) : SessionError := if state.IsTerminal then .kConnectionFailed else .kNotConnected

def beginCall (i : Nat) (call : ApiCall) (s : RlpxSession) : RlpxSession × List SessionEvent :=
  match s.calls i with
  | some _ => (s, [])
  | none =>
    if s.control.state = .kActive then ({ s with calls := Function.update s.calls i (some call) }, [])
    else (s, [.refused (refusal s.control.state)])

/-- A call that has found the session active goes to its channel. -/
def finishCall (i : Nat) (s : RlpxSession) : RlpxSession × List SessionEvent :=
  let calls := Function.update s.calls i none
  match s.calls i with
  | none => (s, [])
  | some (.post message) => ({ s with calls, sendChannel := s.sendChannel ++ [message] }, [.posted message])
  | some .receive =>
    match s.recvChannel with
    | [] => ({ s with calls }, [.refused .kNotConnected])
    | message :: rest => ({ s with calls, recvChannel := rest }, [.pulled message])

/-- The next step of a call of `disconnect`; its last one closes the stream. -/
def stepDisconnect (i : Nat) (spurious : Bool) (s : RlpxSession) : RlpxSession :=
  let control := (s.control.step (.disconnect i spurious)).1
  if s.control.callers i = .close then { s with control, stream := s.stream.close, ended := true } else { s with
    control }

/-! ### All of it -/

def stepUse (s : RlpxSession) : SessionUse → RlpxSession × List SessionEvent
  | .call i call => s.beginCall i call
  | .finish i => s.finishCall i
  | .disconnect i spurious => (s.stepDisconnect i spurious, [])
  | .send timerOk => s.stepSend env codec timerOk
  | .receive => s.stepReceive env codec

/-- Before `connect` returns nobody has the session. -/
def step (s : RlpxSession) : EndAction → RlpxSession × List SessionEvent
  | .connect => s.stepConnect env codec
  | .use use => if s.point = .opened then s.stepUse env codec use else (s, [])
  | .cut keep error =>
    ({ s with
        ended := true
        stream := { s.stream with transport :=
          { s.stream.transport with incoming := s.stream.transport.incoming.take keep, readError := error } } }, [])
  | .breakWrites limit error =>
    ({ s with stream := { s.stream with transport :=
        { s.stream.transport with writeLimit := some limit, writeError := error } } }, [])

def feed (bytes : Bytes) (s : RlpxSession) : RlpxSession :=
  { s with stream := { s.stream with transport := { s.stream.transport with
    incoming := s.stream.transport.incoming ++ bytes } } }

end RlpxSession

/-! ## Two ends -/

structure Connection where
  ends : Role → RlpxSession
  /-- How many of the bytes that an end has written have arrived at the other one. -/
  arrived : Role → Nat

inductive ConnectionAction
  | act (who : Role) (action : EndAction)
  /-- Of the bytes that `who` has written, the next `n` arrive. -/
  | arrive (who : Role) (n : Nat)
deriving DecidableEq

namespace Connection

def new (hello : Role → HelloMessage) (handlers : Role → Handlers) (secrets : Role → FrameSecrets) : Connection where
  ends who := .new (hello who) (handlers who) (secrets who)
  arrived _ := 0

/-- What `who` has written and what has not arrived. -/
def onTheWay (c : Connection) (who : Role) : Bytes := (c.ends who).stream.transport.outgoing.drop (c.arrived who)

def arrive (who : Role) (n : Nat) (c : Connection) : Connection :=
  if (c.ends who.peer).ended then c
  else
    { ends := Function.update c.ends who.peer ((c.ends who.peer).feed ((c.onTheWay who).take n))
      arrived := Function.update c.arrived who (c.arrived who + ((c.onTheWay who).take n).length) }

def step (c : Connection) : ConnectionAction → Connection × List (Role × SessionEvent)
  | .act who action =>
    let (s, events) := (c.ends who).step env codec action
    ({ c with ends := Function.update c.ends who s }, events.map (Prod.mk who))
  | .arrive who n => (c.arrive who n, [])

/-- The connection after the actions, in any interleaving of both ends and of the network. -/
def after (c : Connection) (actions : List ConnectionAction) : Connection := (runEffects (step env codec) c actions).1

def trace (c : Connection) (actions : List ConnectionAction) : List (Role × SessionEvent) :=
  (runEffects (step env codec) c actions).2

end Connection

/-! ## What has happened -/

def eventsAt (who : Role) (events : List (Role × SessionEvent)) : List SessionEvent :=
  events.filterMap fun event => if event.1 = who then some event.2 else none

def SessionEvent.opened? : SessionEvent → Option SessionInfo
  | .opened info => some info
  | _ => none

def SessionEvent.posted? : SessionEvent → Option Message
  | .posted message => some message
  | _ => none

def SessionEvent.sent? : SessionEvent → Option Message
  | .sent message => some message
  | _ => none

def SessionEvent.received? : SessionEvent → Option Message
  | .received message => some message
  | _ => none

def SessionEvent.pulled? : SessionEvent → Option Message
  | .pulled message => some message
  | _ => none

def SessionEvent.handled? : SessionEvent → Option HandlerCall
  | .handled call => some call
  | _ => none

/-- What `connect` has returned. -/
def openedIn (events : List SessionEvent) : List SessionInfo := events.filterMap SessionEvent.opened?

def postedIn (events : List SessionEvent) : List Message := events.filterMap SessionEvent.posted?

def sentIn (events : List SessionEvent) : List Message := events.filterMap SessionEvent.sent?

def receivedIn (events : List SessionEvent) : List Message := events.filterMap SessionEvent.received?

/-- The messages that `receive_message` has returned. -/
def pulledIn (events : List SessionEvent) : List Message := events.filterMap SessionEvent.pulled?

def handledIn (events : List SessionEvent) : List HandlerCall := events.filterMap SessionEvent.handled?

end DevP2P.Rlpx
