import DevP2P.Lib.Bytes
import DevP2P.Lib.Outcome

/-!
# The socket (`rlpx/socket/socket_transport.cpp`)

A connection is the bytes the peer sends before the stream ends, and the bytes written so far.

* `readExact` : exactly `n` bytes, or an error; `readExact_eq_ok_iff`;
* `writeAll` : all bytes, or an error; `writeAll_eq_ok_iff`.
-/

namespace DevP2P.Rlpx
open DevP2P.Lib

inductive SessionError
  | kNetworkFailure
  | kAuthenticationFailed
  | kHandshakeFailed
  | kInvalidState
  | kPeerDisconnected
  | kTimeout
  | kCompressionError
  | kEncryptionError
  | kDecryptionError
  | kInvalidMessage
  | kInvalidFrameSize
  | kBufferOverflow
  | kConnectionFailed
  | kNotConnected
  | kDisconnected
deriving DecidableEq

/-- The errors of the socket that the code tells apart. -/
inductive SocketError
  | eof
  | connectionReset
  | operationAborted
  | brokenPipe
  | other
deriving DecidableEq

structure SocketTransport where
  /-- What the peer sends before the stream ends. -/
  incoming : Bytes
  /-- How the stream ends. -/
  readError : SocketError
  /-- What has been written. -/
  outgoing : Bytes
  /-- The bytes that can still be written, if a write fails at some point. -/
  writeLimit : Option Nat
  writeError : SocketError
deriving DecidableEq

abbrev TransportM := EStateM SessionError SocketTransport

def readFailure : SocketError → SessionError
  | .eof | .connectionReset | .operationAborted => .kConnectionFailed
  | .brokenPipe | .other => .kInvalidMessage

def writeFailure : SocketError → SessionError
  | .eof | .connectionReset | .brokenPipe => .kConnectionFailed
  | .operationAborted | .other => .kInvalidMessage

def readExact (numBytes : Nat) : TransportM Bytes := fun t =>
  if numBytes ≤ t.incoming.length then
    .ok (t.incoming.take numBytes) { t with incoming := t.incoming.drop numBytes }
  else .error (readFailure t.readError) { t with incoming := [] }

def writeAll (data : Bytes) : TransportM Unit := fun t =>
  match t.writeLimit with
  | none => .ok () { t with outgoing := t.outgoing ++ data }
  | some limit =>
    if data.length ≤ limit then
      .ok () { t with outgoing := t.outgoing ++ data, writeLimit := some (limit - data.length) }
    else .error (writeFailure t.writeError)
      { t with outgoing := t.outgoing ++ data.take limit, writeLimit := some 0 }

theorem readExact_eq_ok_iff {n : Nat} {b : Bytes} {t t' : SocketTransport} :
    readExact n t = .ok b t' ↔
      b.length = n ∧ t.incoming = b ++ t'.incoming ∧ t' = { t with incoming := t'.incoming } := by
  unfold readExact
  split_ifs with h
  · rw [EStateM.Result.ok.injEq]
    refine ⟨fun ⟨hb, ht⟩ => ?_, fun ⟨hb, hin, ht⟩ => ⟨?_, ?_⟩⟩
    · subst ht
      refine ⟨by rw [← hb, List.length_take, Nat.min_eq_left h], ?_, rfl⟩
      rw [← hb, List.take_append_drop]
    · rw [hin, List.take_left' hb]
    · rw [ht, hin, List.drop_left' hb]
  · refine ⟨nofun, fun ⟨hb, hin, _⟩ => absurd ?_ h⟩
    rw [hin, List.length_append, hb]
    exact Nat.le_add_right _ _

/-- `n` bytes can be written without a failure. -/
def SocketTransport.CanWrite (t : SocketTransport) (n : Nat) : Prop := ∀ limit ∈ t.writeLimit, n ≤ limit

theorem writeAll_eq_ok_iff {data : Bytes} {t t' : SocketTransport} {u : Unit} :
    writeAll data t = .ok u t' ↔ t.CanWrite data.length ∧
      t' = { t with outgoing := t.outgoing ++ data, writeLimit := t.writeLimit.map (· - data.length) } := by
  unfold writeAll SocketTransport.CanWrite
  cases hlimit : t.writeLimit with
  | none => simp [eq_comm]
  | some limit =>
      by_cases h : data.length ≤ limit
      · simp [h, eq_comm]
      · simp [h]

end DevP2P.Rlpx
