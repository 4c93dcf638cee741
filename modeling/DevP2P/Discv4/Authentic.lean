import DevP2P.Discv4.Client
import DevP2P.Lib.Curve
import DevP2P.Lib.Digest

/-!
# Which packets the client acts on

`handlePacket` selects a handler by the type byte, and no handler calls `verifyPacket`.

* `Acts` : something of the client has changed, or something was spawned or cancelled;
* `Triggers` : the packets the client acts on (`acts_iff`), read off the handlers;
* `handlePacket_authentic_iff` : the client acts on a verified packet only, exactly when no packet that triggers fails
  the verification;
* `unverified_ping_is_answered` : a PING with a wrong hash is answered, and its sender counts as bonded.
-/

namespace DevP2P.Discv4
open DevP2P.Lib DevP2P.Rlp Stateful

/-- The client has done something between `c` and `c'`: a set or a table has changed, a slot was filled, a timer was
cancelled, or a task was spawned, which is how a handler sends a packet. -/
def Acts (c c' : Discv4Client) : Prop :=
  c'.bondedSet ≠ c.bondedSet ∨ c'.discoveredSet ≠ c.discoveredSet ∨ c'.peers ≠ c.peers ∨
    c'.pendingReplies ≠ c.pendingReplies ∨ c'.pongSlots ≠ c.pongSlots ∨ c'.enrSlots ≠ c.enrSlots ∨
    c'.cancelled ≠ c.cancelled ∨ c'.tasks ≠ c.tasks

instance (c c' : Discv4Client) : Decidable (Acts c c') := by
  unfold Acts
  infer_instance

theorem not_acts_self (c : Discv4Client) : ¬ Acts c c := by
  simp [Acts]

theorem acts_of_cancelled {c c' : Discv4Client} (timer : Nat) (h : c'.cancelled = c.cancelled ++ [timer]) :
    Acts c c' := by
  have hne : c'.cancelled ≠ c.cancelled := by
    rw [h]
    simp
  simp [Acts, hne]

theorem acts_of_tasks {c c' : Discv4Client} {task : Task} (h : c'.tasks = c.tasks ++ [task]) : Acts c c' := by
  have hne : c'.tasks ≠ c.tasks := by
    rw [h]
    simp
  simp [Acts, hne]

@[simp] theorem orReturn_ok {ε α : Type} (a : α) (c : Discv4Client) :
    orReturn (.ok a : Except ε α) c = .ok a c := rfl

@[simp] theorem orReturn_error {ε α : Type} (e : ε) (c : Discv4Client) :
    orReturn (.error e : Except ε α) c = .error (.error ()) c := rfl

variable (env : Discv4Primitives) (input : HandlerInput) (data : Bytes) (sender : Endpoint) (c : Discv4Client)

/-! ## PING -/

/-- The answer to the PING `data` is signed. -/
def AnswerSigned : Prop :=
  ∃ packet, signPacket env c.config.privateKey (pongPayload sender.address sender.port c.config.tcpPort
    (FixedBytes.load 32 data) (expirationAt input)) = .ok packet

variable {data} in
theorem handlePing_of_not_signed (hlen : kWireHeaderSize ≤ data.length) (h : ¬ AnswerSigned env input data sender c) :
    finalState (handlePing env input data sender c) = c := by
  unfold handlePing
  rw [rejectIf_bind_of_not (by omega)]
  dsimp only
  rw [get_bind, encodePong_eq, Stateful.outcome, bind_of_ok (orReturn_ok _ c)]
  unfold AnswerSigned pongPayload at h
  cases hsign : signPacket env c.config.privateKey _ with
  | error e =>
      rw [bind_of_error (orReturn_error e c)]
      rfl
  | ok packet => exact absurd ⟨packet, hsign⟩ h

variable {data} in
theorem handlePing_of_signed (hlen : kWireHeaderSize ≤ data.length) (h : AnswerSigned env input data sender c) :
    ∃ packet, finalState (handlePing env input data sender c) =
      { c with
        bondedSet := insert (endpointKey (env.addressToString sender.address) sender.port) c.bondedSet
        tasks := c.tasks ++ [.answerPing (env.addressToString sender.address) sender.port packet] } := by
  obtain ⟨packet, hsign⟩ := h
  refine ⟨packet, ?_⟩
  unfold handlePing
  rw [rejectIf_bind_of_not (by omega)]
  dsimp only
  rw [get_bind, encodePong_eq, Stateful.outcome, bind_of_ok (orReturn_ok _ c)]
  unfold pongPayload at hsign
  rw [hsign, bind_of_ok (orReturn_ok packet c)]
  rfl

variable {data} in
theorem handlePing_acts_iff (hlen : kWireHeaderSize ≤ data.length) :
    Acts c (finalState (handlePing env input data sender c)) ↔ AnswerSigned env input data sender c := by
  by_cases h : AnswerSigned env input data sender c
  · obtain ⟨packet, heq⟩ := handlePing_of_signed env input sender c hlen h
    rw [heq]
    exact iff_of_true (acts_of_tasks rfl) h
  · rw [handlePing_of_not_signed env input sender c hlen h]
    exact iff_of_false (not_acts_self c) h

/-! ## Replies with a token -/

/-- The packet is a reply that an entry waits for: it carries the hash of the entry, and the entry has a slot for it. -/
def ReplyAwaited {R : Type} (ptype : UInt8) (parse : Bytes → Except DecodingError R) (token : R → Hash)
    (slotOf : PendingReply → Option Nat) : Prop :=
  ∃ reply entry slot, parse data = .ok reply ∧ pendingReply env sender ptype c = some entry ∧
    token reply = entry.expectedHash ∧ slotOf entry = some slot

section AcceptReply

variable {data} {R : Type} {ptype : UInt8} {parse : Bytes → Except DecodingError R} {token : R → Hash}
  {slotOf : PendingReply → Option Nat} {store : Nat → R → Discv4Client → Discv4Client}

theorem acceptReply_of_awaited (hlen : kWireHeaderSize ≤ data.length) {reply : R} {entry : PendingReply} {slot : Nat}
    (hparse : parse data = .ok reply) (hentry : pendingReply env sender ptype c = some entry)
    (htoken : token reply = entry.expectedHash) (hslot : slotOf entry = some slot) :
    finalState (acceptReply env ptype parse token slotOf store data sender c) =
      { store slot reply c with cancelled := (store slot reply c).cancelled ++ [entry.timer] } := by
  unfold acceptReply
  rw [rejectIf_bind_of_not (by omega), hparse, bind_of_ok (orReturn_ok reply c), get_bind, hentry,
    Outcome.unwrap_some, bind_of_ok (orReturn_ok entry c), rejectIf_bind_of_not (by simp [htoken]), hslot,
    Outcome.unwrap_some, bind_of_ok (lift_ok slot c)]
  rfl

theorem acceptReply_of_not_awaited (hlen : kWireHeaderSize ≤ data.length)
    (h : ¬ ReplyAwaited env data sender c ptype parse token slotOf) :
    finalState (acceptReply env ptype parse token slotOf store data sender c) = c := by
  unfold acceptReply
  rw [rejectIf_bind_of_not (by omega)]
  -- each step before the slot is filled leaves the client as it is
  cases hparse : parse data with
  | error e =>
      rw [bind_of_error (orReturn_error e c)]
      rfl
  | ok reply =>
      rw [bind_of_ok (orReturn_ok reply c), get_bind]
      cases hentry : pendingReply env sender ptype c with
      | none =>
          rw [Outcome.unwrap_none, bind_of_error (orReturn_error () c)]
          rfl
      | some entry =>
          rw [Outcome.unwrap_some, bind_of_ok (orReturn_ok entry c)]
          by_cases htoken : token reply = entry.expectedHash
          · rw [rejectIf_bind_of_not (by simp [htoken])]
            cases hslot : slotOf entry with
            | none =>
                rw [Outcome.unwrap_none, bind_of_error (lift_error _ c)]
                rfl
            | some slot => exact absurd ⟨reply, entry, slot, hparse, hentry, htoken, hslot⟩ h
          · rw [rejectIf_bind_of htoken]
            rfl

theorem acceptReply_acts_iff (hstore : ∀ slot reply c, (store slot reply c).cancelled = c.cancelled)
    (hlen : kWireHeaderSize ≤ data.length) :
    Acts c (finalState (acceptReply env ptype parse token slotOf store data sender c)) ↔
      ReplyAwaited env data sender c ptype parse token slotOf := by
  by_cases h : ReplyAwaited env data sender c ptype parse token slotOf
  · obtain ⟨reply, entry, slot, hparse, hentry, htoken, hslot⟩ := id h
    rw [acceptReply_of_awaited env sender c hlen hparse hentry htoken hslot]
    refine iff_of_true (acts_of_cancelled entry.timer ?_) h
    rw [hstore]
  · rw [acceptReply_of_not_awaited env sender c hlen h]
    exact iff_of_false (not_acts_self c) h

end AcceptReply

variable {data} in
theorem handlePong_acts_iff (hlen : kWireHeaderSize ≤ data.length) :
    Acts c (finalState (handlePong env data sender c)) ↔
      ReplyAwaited env data sender c kPacketTypePong parsePong Discv4Pong.pingHash PendingReply.pong := by
  apply acceptReply_acts_iff env sender c _ hlen
  intro slot pong c
  rfl

variable {data} in
theorem handleEnrResponse_acts_iff (hlen : kWireHeaderSize ≤ data.length) :
    Acts c (finalState (handleEnrResponse env data sender c)) ↔
      ReplyAwaited env data sender c kPacketTypeEnrResponse parseEnrResponse Discv4EnrResponse.requestHash
        PendingReply.enrResponse := by
  apply acceptReply_acts_iff env sender c _ hlen
  intro slot response c
  rfl

/-! ## NEIGHBOURS -/

theorem recordNode_cancelled (lastSeen : Nat) (node : NodeEntry) :
    (recordNode lastSeen node c).cancelled = c.cancelled := by
  unfold recordNode
  dsimp only
  split_ifs <;> rfl

theorem neighboursLoop_cancelled (nodesStart nodesLen fuel i : Nat) (d : RlpDecoder) :
    (neighboursLoop input nodesStart nodesLen fuel i d c).cancelled = c.cancelled := by
  induction fuel generalizing i d c with
  | zero => rfl
  | succ fuel ih =>
      unfold neighboursLoop
      split_ifs
      · rfl
      · cases readNode d with
        | error e d' => rfl
        | ok node d' =>
            dsimp only
            rw [ih, recordNode_cancelled]

variable {data} in
theorem handleNeighbours_acts_iff (hlen : kWireHeaderSize ≤ data.length) :
    Acts c (finalState (handleNeighbours env input data sender c)) ↔
      ∃ entry, pendingReply env sender kPacketTypeNeighbours c = some entry := by
  unfold handleNeighbours
  rw [rejectIf_bind_of_not (by omega), get_bind]
  cases pendingReply env sender kPacketTypeNeighbours c with
  | none =>
      rw [Outcome.unwrap_none, bind_of_error (orReturn_error () c)]
      simp [finalState, not_acts_self]
  | some entry =>
      rw [Outcome.unwrap_some, bind_of_ok (orReturn_ok entry c)]
      refine ⟨fun _ => ⟨entry, rfl⟩, fun _ => acts_of_cancelled entry.timer ?_⟩
      -- the timer is cancelled before the nodes are read, whether or not they can be
      unfold cancel
      rw [bind_of_ok (modify_apply _ c)]
      cases readNodes ⟨data.drop kWireHeaderSize⟩ with
      | error e d => rfl
      | ok nodesLen d =>
          show (neighboursLoop input _ _ _ _ _ _).cancelled = _
          rw [neighboursLoop_cancelled]

/-! ## All packets -/

/-- The packets the client acts on: a PING whose answer can be signed, a NEIGHBOURS packet from an endpoint that was
asked for it, and a PONG or an ENR response that an entry waits for. -/
def Triggers : Prop :=
  kWireHeaderSize ≤ data.length ∧
    ((Bytes.at data kWirePacketTypeOffset = kPacketTypePing ∧ AnswerSigned env input data sender c) ∨
      (Bytes.at data kWirePacketTypeOffset = kPacketTypePong ∧
        ReplyAwaited env data sender c kPacketTypePong parsePong Discv4Pong.pingHash PendingReply.pong) ∨
      (Bytes.at data kWirePacketTypeOffset = kPacketTypeNeighbours ∧
        ∃ entry, pendingReply env sender kPacketTypeNeighbours c = some entry) ∨
      (Bytes.at data kWirePacketTypeOffset = kPacketTypeEnrResponse ∧
        ReplyAwaited env data sender c kPacketTypeEnrResponse parseEnrResponse Discv4EnrResponse.requestHash
          PendingReply.enrResponse))

theorem acts_iff :
    Acts c (finalState (handlePacket env input data sender c)) ↔ Triggers env input data sender c := by
  unfold handlePacket Triggers
  by_cases hlen : kWireHeaderSize ≤ data.length
  · rw [rejectIf_bind_of_not (by omega)]
    generalize Bytes.at data kWirePacketTypeOffset = packetType
    split_ifs with hping hpong hfind hneighbours hrequest henr
    · rw [handlePing_acts_iff env input sender c hlen, hping]
      simp [hlen, kPacketTypePing, kPacketTypePong, kPacketTypeNeighbours, kPacketTypeEnrResponse]
    · rw [handlePong_acts_iff env sender c hlen, hpong]
      simp [hlen, kPacketTypePing, kPacketTypePong, kPacketTypeNeighbours, kPacketTypeEnrResponse]
    · rw [hfind]
      simp [finalState, handleFindNode, not_acts_self, kPacketTypeFindNode, kPacketTypePing, kPacketTypePong,
        kPacketTypeNeighbours, kPacketTypeEnrResponse]
    · rw [handleNeighbours_acts_iff env input sender c hlen, hneighbours]
      simp [hlen, kPacketTypePing, kPacketTypePong, kPacketTypeNeighbours, kPacketTypeEnrResponse]
    · rw [hrequest]
      simp [finalState, handleEnrRequest, not_acts_self, kPacketTypeEnrRequest, kPacketTypePing, kPacketTypePong,
        kPacketTypeNeighbours, kPacketTypeEnrResponse]
    · rw [handleEnrResponse_acts_iff env sender c hlen, henr]
      simp [hlen, kPacketTypePing, kPacketTypePong, kPacketTypeNeighbours, kPacketTypeEnrResponse]
    · simp [finalState, not_acts_self, hping, hpong, hneighbours, henr]
  · rw [rejectIf_bind_of (by omega)]
    simp [finalState, not_acts_self, hlen]

/-- **When the client acts on verified packets only.** What it acts on does not depend on the verification. -/
theorem handlePacket_authentic_iff :
    (Acts c (finalState (handlePacket env input data sender c)) → ∃ id, verifyPacket env data = .ok id) ↔
      ((∃ id, verifyPacket env data = .ok id) ∨ ¬ Triggers env input data sender c) := by
  rw [acts_iff, imp_iff_or_not]

/-! ## A PING that is not authentic -/

/-- The third-party functions, with one nonce for all signatures. -/
def curveEnv : Discv4Primitives where
  secp := Curve.library fun _ _ => 1
  keccak256 := keccak256
  recoverableParseCompact sig recid :=
    let r := beLoad (sig.bytes.take 32)
    let s := beLoad (sig.bytes.drop 32)
    if r < Curve.order ∧ s < Curve.order ∧ recid < 4 then some (r, s, recoveryId recid) else none
  ecdsaRecover sig msgHash := Curve.recover sig.1 sig.2.1 sig.2.2.val (beLoad msgHash.bytes)
  addressToString ip := ipText ip.bytes

def startedClient : Discv4Client where
  config := ⟨30303, .load _ (beStore 32 1)⟩
  running := true
  peers := ∅
  pendingReplies := ∅
  bondedSet := ∅
  discoveredSet := ∅
  pongSlots := ∅
  enrSlots := ∅
  cancelled := []
  tasks := []

/-- Neither the hash nor the signature is one of this PING. -/
def forgedPing : Bytes := List.replicate (kWireHashSize + kWireSigSize) 0 ++ [kPacketTypePing, 0xC0]

/-- **A forged PING is answered.** Its hash is wrong; its sender counts as bonded, and the answer is spawned. -/
theorem unverified_ping_is_answered :
    verifyPacket curveEnv forgedPing = .error .kHashMismatch ∧
    Acts startedClient (finalState
      (handlePacket curveEnv ⟨0, fun _ => 0⟩ forgedPing ⟨⟨[10, 0, 0, 1], rfl⟩, 30303⟩ startedClient)) := by
  decide +kernel

end DevP2P.Discv4
