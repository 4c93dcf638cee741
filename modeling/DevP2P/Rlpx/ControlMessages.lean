import DevP2P.Rlp.Fields
import DevP2P.Rlpx.Hello

/-!
# Disconnect, Ping, Pong and the routing of messages (`rlpx/protocol/messages.cpp`, `rlpx/rlpx_session.cpp`)

* `DisconnectMessage.encode`, `DisconnectMessage.decode` : the codec; the decoder refuses nothing;
* `Handlers`, `routeMessage` : the handler that a message is given to;
* `routeMessage_disconnect` : a reason that was encoded reaches the handler.
-/

namespace DevP2P.Rlpx
open DevP2P.Lib DevP2P.Rlp Stateful

def kPingMessageId : UIntTy.Val .uint8 := 0x02
def kPongMessageId : UIntTy.Val .uint8 := 0x03

/-- `DisconnectReason`: an enumeration over a byte, to which the decoder casts any byte. -/
abbrev DisconnectReason := UIntTy.Val .uint8

namespace DisconnectReason

def kRequested : DisconnectReason := 0x00

end DisconnectReason

structure DisconnectMessage where
  reason : DisconnectReason
deriving DecidableEq

namespace DisconnectMessage

def encode (msg : DisconnectMessage) : Except SessionError Bytes :=
  Stateful.outcome (withError .kInvalidMessage (do nestedList (addUInt msg.reason); getBytes) .new)

/-- Peers send Disconnect without a body, as an empty list and as a bare byte; the decoder takes them all. -/
def decode (rlpData : ByteView) : DisconnectMessage :=
  match rlpData with
  | [] => ⟨.kRequested⟩
  | first :: _ =>
    match readListHeaderBytes ⟨rlpData⟩ with
    | .error _ _ => ⟨first.toBitVec⟩
    | .ok listSize d =>
      if listSize = 0 then ⟨.kRequested⟩
      else match readBytes d with
        | .error _ _ => ⟨.kRequested⟩
        | .ok reasonBytes _ => ⟨firstByte reasonBytes⟩

def bytesOf (reason : DisconnectReason) : Bytes := encodeString (beBytes reason.toNat)

theorem length_bytesOf_lt (reason : DisconnectReason) : (bytesOf reason).length < kSizeModulus := by
  have hle := length_encodeString_le (Field.length_beBytes_lt reason)
  have hbyte : byteLength reason.toNat ≤ 1 := (byteLength_le_iff _ _).mpr (UIntTy.val_lt reason)
  rw [length_beBytes] at hle
  show _ < 2 ^ 64
  unfold bytesOf
  omega

theorem encode_eq (msg : DisconnectMessage) : msg.encode = .ok (encodeList (bytesOf msg.reason)) := by
  have hrun : (do nestedList (addUInt msg.reason); getBytes : EncodeM Bytes) .new =
      .ok (encodeList (bytesOf msg.reason)) ⟨encodeList (bytesOf msg.reason), []⟩ := by
    unfold RlpEncoder.new
    rw [bind_of_ok ((Appends.uint msg.reason).list (length_bytesOf_lt msg.reason) [] []), List.nil_append, getBytes_run]
    rfl
  unfold encode
  rw [outcome_eq_ok]
  exact ⟨_, withError_eq_ok.mpr hrun⟩

theorem decode_encodeList (reason : DisconnectReason) : decode (encodeList (bytesOf reason)) = ⟨reason⟩ := by
  have hheader := readListHeaderBytes_encodeList (length_bytesOf_lt reason)
  have hread := Parses.bytes.run ⟨Field.length_beBytes_lt reason, rfl⟩ []
  rw [List.append_nil] at hread
  have hpos : (bytesOf reason).length ≠ 0 := Nat.ne_of_gt (length_encodeString_pos _)
  cases hb : encodeList (bytesOf reason) with
  | nil => exact absurd hb (encodeList_ne_nil _)
  | cons first rest =>
      rw [hb] at hheader
      unfold decode
      simp only [hheader]
      rw [if_neg hpos]
      unfold bytesOf
      simp only [hread, firstByte_beBytes]

end DisconnectMessage

/-! ## Routing -/

structure Handlers where
  hello : Bool
  disconnect : Bool
  ping : Bool
  pong : Bool
  generic : Bool
deriving DecidableEq

inductive HandlerCall
  | hello (msg : HelloMessage)
  | disconnect (msg : DisconnectMessage)
  | ping
  | pong
  | generic (msg : Message)
deriving DecidableEq

/-- `RlpxSession::route_message`: the calls of handlers for a message. -/
def routeMessage (handlers : Handlers) (msg : Message) : List HandlerCall :=
  if msg.id = kHelloMessageId then
    if handlers.hello then
      match HelloMessage.decode msg.payload with
      | .ok hello => [.hello hello]
      | .error _ => []
    else []
  else if msg.id = kDisconnectMessageId then
    if handlers.disconnect then [.disconnect (DisconnectMessage.decode msg.payload)] else []
  else if msg.id = kPingMessageId then if handlers.ping then [.ping] else []
  else if msg.id = kPongMessageId then if handlers.pong then [.pong] else []
  else if handlers.generic then [.generic msg] else []

theorem routeMessage_disconnect {handlers : Handlers} (h : handlers.disconnect = true) {msg : DisconnectMessage}
    {payload : Bytes}
    (hpayload : msg.encode = .ok payload) : routeMessage handlers ⟨kDisconnectMessageId, payload⟩ =
      [.disconnect msg] := by
  rw [DisconnectMessage.encode_eq, Except.ok.injEq] at hpayload
  unfold routeMessage
  have hid : kDisconnectMessageId ≠ kHelloMessageId := by decide
  rw [if_neg hid, if_pos rfl, if_pos h, ← hpayload, DisconnectMessage.decode_encodeList]

end DevP2P.Rlpx
