import DevP2P.Rlpx.SessionSteps

/-!
# Messages are delivered in order

* `EndsInStep` : what holds of two ends whose ciphers match; `endsInStep_step` : every action keeps it;
* `messages_delivered_in_order` : what an end receives is the front of what was posted at the other one, whatever fails;
* `opened_sessions_know_their_peer` : what an opened session has learned is what its peer said.
-/

namespace DevP2P.Rlpx
open DevP2P.Lib DevP2P.Rlp RlpxSession

section

variable (who : Role) (events : List (Role × SessionEvent)) (evs : List SessionEvent)

theorem eventsAt_append (events' : List (Role × SessionEvent)) :
    eventsAt who (events ++ events') = eventsAt who events ++ eventsAt who events' := List.filterMap_append

theorem eventsAt_self : eventsAt who (evs.map (Prod.mk who)) = evs := by
  unfold eventsAt
  rw [List.filterMap_map]
  refine (List.filterMap_congr fun event _ => ?_).trans List.filterMap_some
  exact if_pos rfl

theorem eventsAt_of_ne {other : Role} (h : other ≠ who) : eventsAt who (evs.map (Prod.mk other)) = [] := by
  unfold eventsAt
  rw [List.filterMap_map]
  exact List.filterMap_eq_nil_iff.mpr fun event _ => if_neg h

end

/-- The two ends of a connection, each in step with the other. -/
structure EndsInStep (env : RlpxPrimitives) (codec : SnappyCodec) (hello : Role →
    HelloMessage) (handlers : Role → Handlers)
    (start : Role → CipherHalf) (c : Connection) (events : List (Role × SessionEvent)) : Prop where
  idle : ∀ who, (c.ends who).Idle
  writer : ∀ who, Writer env codec (hello who) (start who) (c.ends who) (eventsAt who events)
  reader : ∀ who, Reader env codec (handlers who) (hello who.peer) (start who.peer)
    (c.ends who.peer).stream.transport.outgoing
    (c.arrived who.peer) (c.ends who) (eventsAt who events)
  received : ∀ who, receivedIn (eventsAt who events) <+: sentIn (eventsAt who.peer events)
  greeted : ∀ who, (c.ends who).point = .opened → hasGreeted (eventsAt who.peer events) = true

/-- What a step of the end `s` keeps, its peer having sent `sent`. -/
structure EndKept (env : RlpxPrimitives) (codec : SnappyCodec) (hello peerHello : HelloMessage) (handlers : Handlers)
    (start peerStart : CipherHalf) (out : Bytes) (arrived : Nat) (sent : List Message) (greeted : Bool)
    (s : RlpxSession)
    (es evs : List SessionEvent) : Prop where
  writer : Writer env codec hello start s (es ++ evs)
  reader : Reader env codec handlers peerHello peerStart out arrived s (es ++ evs)
  received : receivedIn (es ++ evs) <+: sent
  greeted : s.point = .opened → greeted = true

variable {env : RlpxPrimitives} {codec : SnappyCodec}

section

variable {hello peerHello : HelloMessage} {handlers : Handlers} {start peerStart : CipherHalf} {out : Bytes}
    {arrived : Nat}
  {sent : List Message} {greeted : Bool} {s : RlpxSession} {es : List SessionEvent}

/-- **A step of one end.** -/
theorem endKept_step (hw : Writer env codec hello start s es)
    (hr : Reader env codec handlers peerHello peerStart out arrived s es)
    (hidle : s.Idle) (hpre : receivedIn es <+: sent) (hgreeted : s.point = .opened → greeted = true)
    (hframed : Framed (CipherHalf.emitFrame env) FrameSized peerStart out (contents codec peerHello greeted sent))
    (hsent : greeted = false → sent = []) (hlen : hello.wire.item.encode.length < 2 ^ 64)
    (hpeerLen : peerHello.wire.item.encode.length < 2 ^ 64) (hversion : kProtocolVersion ≤ peerHello.protocolVersion)
    (a : EndAction) :
    EndKept env codec hello peerHello handlers start peerStart out arrived sent greeted (s.step env codec a).1 es
      (s.step env codec a).2 := by
  -- a step that reads nothing
  have hkept {s' : RlpxSession} {evs : List SessionEvent} (hw' : Writer env codec hello start s' (es ++ evs))
      (hk : KeepsReader s s' evs) :
      EndKept env codec hello peerHello handlers start peerStart out arrived sent greeted s' es evs := by
    refine ⟨hw', hr.keep hk, ?_, fun hopened => hgreeted (hk.opened.mp hopened)⟩
    rwa [receivedIn_append, hk.received, List.append_nil]
  have hsame : EndKept env codec hello peerHello handlers start peerStart out arrived sent greeted s es [] := by
    refine hkept ?_ (.of_eq rfl Iff.rfl id (.refl _) rfl rfl rfl rfl rfl)
    rwa [List.append_nil]
  cases a with
  | connect =>
      unfold RlpxSession.step stepConnect
      cases hpoint : s.point with
      | sendHello =>
          obtain ⟨hw', hk⟩ := writer_sendHello hw hpoint (by rw [hidle (by simp [hpoint])]; rfl) hlen
          exact hkept hw' hk
      | awaitHello =>
          obtain ⟨hw', hr', hreceived, hopened⟩ :=
            receiveHello_step hw hr hpoint (by rw [hidle (by simp [hpoint])]; rfl)
            hpeerLen hversion hframed hsent
          exact ⟨hw', hr', hreceived ▸ List.nil_prefix, hopened⟩
      | opened => exact hsame
      | failed e => exact hsame
  | use use =>
      unfold RlpxSession.step
      split_ifs with hopened
      · have hmode : s.stream.compressionEnabled = true := by
          rw [hw.mode.1, hopened]
          rfl
        cases use with
        | call i call =>
            obtain ⟨hkw, hkr⟩ := keeps_beginCall i call s
            exact hkept (hw.keep hkw) hkr
        | finish i =>
            obtain ⟨hkw, hkr⟩ := keeps_finishCall i s
            exact hkept (hw.keep hkw) hkr
        | disconnect i spurious =>
            obtain ⟨hkw, hkr⟩ := keeps_stepDisconnect i spurious s
            exact hkept (hw.keep hkw) hkr
        | send timerOk =>
            have hstep := sendStep_stepSend env codec s timerOk
            exact hkept (writer_sendStep hw hopened hstep) (keepsReader_sendStep hstep)
        | receive =>
            have hstep := receiveStep_stepReceive env codec s
            rw [hgreeted hopened] at hframed
            obtain ⟨hr', hreceived⟩ := reader_receiveStep hr hopened hmode hframed hpre hstep
            have hkw := keepsWriter_receiveStep hstep
            exact ⟨hw.keep hkw, hr', hreceived, fun _ => hgreeted hopened⟩
      · exact hsame
  | cut keep error =>
      have hqueue : s.taken ++ s.sendChannel = s.taken ++ s.sendChannel ++ [] := (List.append_nil _).symm
      exact hkept (hw.keep (.of_eq rfl rfl ⟨rfl, rfl, rfl, rfl⟩ rfl id hqueue rfl rfl))
        ⟨rfl, Iff.rfl, id, fun _ => rfl, fun _ => List.take_prefix _ _, fun _ hended => Bool.noConfusion hended, rfl,
          rfl, rfl, rfl⟩
  | breakWrites limit error =>
      have hqueue : s.taken ++ s.sendChannel = s.taken ++ s.sendChannel ++ [] := (List.append_nil _).symm
      exact hkept (hw.keep ⟨rfl, rfl, ⟨rfl, rfl⟩, rfl, rfl, hqueue, id, rfl, rfl⟩)
        (.of_eq rfl Iff.rfl id ⟨rfl, rfl⟩ rfl rfl rfl rfl rfl)

end

/-! ## Both ends -/

theorem RlpxSession.Reader.feed {handlers : Handlers} {hello : HelloMessage} {start : CipherHalf} {out : Bytes}
    {arrived n : Nat} {s : RlpxSession}
    {es : List SessionEvent} (h : Reader env codec handlers hello start out arrived s es) (hended : s.ended = false) :
    Reader env codec handlers hello start out (arrived + ((out.drop arrived).take n).length)
      (s.feed ((out.drop arrived).take n)) es := by
  have hall : out.take arrived ++ (out.drop arrived).take n =
      out.take (arrived + ((out.drop arrived).take n).length) := by
    rw [List.take_add, List.length_take, ← List.take_eq_take_min]
  have hbound : arrived + ((out.drop arrived).take n).length ≤ out.length := by
    have := h.bound
    rw [List.length_take, List.length_drop]
    omega
  refine ⟨h.ownHandlers, h.quiet, h.learned, h.queue, h.handled, hbound, ?_⟩
  intro hnot
  obtain ⟨hingress, -, harrived⟩ := h.reading hnot
  have hnow : framesOf (CipherHalf.emitFrame env) start (s.hasRead codec hello es) ++
      (s.feed ((out.drop arrived).take n)).stream.transport.incoming =
      out.take (arrived + ((out.drop arrived).take n).length) := by
    show _ ++ (s.stream.transport.incoming ++ _) = _
    rw [← List.append_assoc, harrived hended, hall]
  refine ⟨hingress, ?_, fun _ => hnow⟩
  exact hnow.symm ▸ List.take_prefix _ _

section

variable {hello : Role → HelloMessage} {handlers : Role → Handlers} {start : Role → CipherHalf} {c : Connection}
  {events : List (Role × SessionEvent)}

structure Greetable (hello : Role → HelloMessage) : Prop where
  length : ∀ who, (hello who).wire.item.encode.length < 2 ^ 64
  version : ∀ who, kProtocolVersion ≤ (hello who).protocolVersion

/-- **Every action keeps both ends in step.** -/
theorem endsInStep_step (hgreetable : Greetable hello) (h : EndsInStep env codec hello handlers start c events)
    (a : ConnectionAction) :
    EndsInStep env codec hello handlers start (c.step env codec a).1 (events ++ (c.step env codec a).2) := by
  cases a with
  | act who action =>
      have hkept := endKept_step (h.writer who) (h.reader who) (h.idle who) (h.received who) (h.greeted who)
        (h.writer who.peer).framed
        (h.writer who.peer).greeted (hgreetable.length who) (hgreetable.length who.peer)
          (hgreetable.version who.peer) action
      have hmine : eventsAt who (events ++ ((c.ends who).step env codec action).2.map (Prod.mk who)) =
          eventsAt who events ++ ((c.ends who).step env codec action).2 := by rw [eventsAt_append, eventsAt_self]
      have htheirs : eventsAt who.peer (events ++ ((c.ends who).step env codec action).2.map (Prod.mk who)) =
          eventsAt who.peer events := by
        rw [eventsAt_append, eventsAt_of_ne _ _ who.ne_peer, List.append_nil]
      have hself : Function.update c.ends who ((c.ends who).step env codec action).1 who =
          ((c.ends who).step env codec action).1 :=
        Function.update_self _ _ _
      have hother : Function.update c.ends who ((c.ends who).step env codec action).1 who.peer = c.ends who.peer :=
        Function.update_of_ne who.peer_ne _ _
      show EndsInStep env codec hello handlers start ⟨Function.update c.ends who ((c.ends who).step env codec action).1,
        c.arrived⟩
        (events ++ ((c.ends who).step env codec action).2.map (Prod.mk who))
      refine ⟨?_, ?_, ?_, ?_, ?_⟩
      · refine who.forall_of_self_peer ?_ ?_
        · dsimp only
          rw [hself]
          exact idle_step (h.idle _) action
        · dsimp only
          rw [hother]
          exact h.idle _
      · refine who.forall_of_self_peer ?_ ?_
        · dsimp only
          rw [hself, hmine]
          exact hkept.writer
        · dsimp only
          rw [hother, htheirs]
          exact h.writer _
      · refine who.forall_of_self_peer ?_ ?_
        · dsimp only
          rw [hself, hother, hmine]
          exact hkept.reader
        · dsimp only
          rw [hother, Role.peer_peer, hself, htheirs]
          have hreader := h.reader who.peer
          rw [Role.peer_peer] at hreader
          exact hreader.grow (outgoing_isPrefix_step _ action)
      · refine who.forall_of_self_peer ?_ ?_
        · rw [hmine, htheirs]
          exact hkept.received
        · rw [htheirs, Role.peer_peer, hmine, sentIn_append]
          have hreceived := h.received who.peer
          rw [Role.peer_peer] at hreceived
          exact hreceived.trans (List.prefix_append _ _)
      · refine who.forall_of_self_peer ?_ ?_
        · dsimp only
          rw [hself, htheirs]
          exact hkept.greeted
        · dsimp only
          rw [hother, Role.peer_peer, hmine, hasGreeted_append]
          have hgreeted := h.greeted who.peer
          rw [Role.peer_peer] at hgreeted
          intro hopened
          rw [hgreeted hopened]
          rfl
  | arrive who n =>
      show EndsInStep env codec hello handlers start (c.arrive who n) (events ++ [])
      rw [List.append_nil]
      unfold Connection.arrive
      split_ifs with hended
      · exact h
      · have hself : Function.update c.ends who.peer ((c.ends who.peer).feed ((c.onTheWay who).take n)) who.peer =
            (c.ends who.peer).feed ((c.onTheWay who).take n) := Function.update_self _ _ _
        have hother : Function.update c.ends who.peer ((c.ends who.peer).feed ((c.onTheWay who).take n)) who =
            c.ends who :=
          Function.update_of_ne who.ne_peer _ _
        have hreader := h.reader who.peer
        rw [Role.peer_peer] at hreader
        refine ⟨?_, ?_, ?_, h.received, ?_⟩
        · refine who.forall_of_self_peer ?_ ?_
          · dsimp only
            rw [hother]
            exact h.idle _
          · dsimp only
            rw [hself]
            exact h.idle who.peer
        · refine who.forall_of_self_peer ?_ ?_
          · dsimp only
            rw [hother]
            exact h.writer _
          · dsimp only
            rw [hself, ← List.append_nil (eventsAt who.peer events)]
            exact (h.writer who.peer).keep (.of_eq rfl rfl ⟨rfl, rfl, rfl, rfl⟩ rfl id (List.append_nil _).symm rfl rfl)
        · refine who.forall_of_self_peer ?_ ?_
          · dsimp only
            rw [hother, hself, Function.update_of_ne (Role.peer_ne _)]
            exact h.reader _
          · dsimp only
            rw [Role.peer_peer, hother, hself, Function.update_self]
            exact hreader.feed (Bool.not_eq_true _ ▸ hended)
        · refine who.forall_of_self_peer ?_ ?_
          · dsimp only
            rw [hother]
            exact h.greeted _
          · dsimp only
            rw [hself]
            exact h.greeted who.peer

theorem ingress_new {a b : FrameSecrets} (h : Mirrored a b) :
    (FrameCipher.new a).ingress = (FrameCipher.new b).egress := by
  unfold FrameCipher.new
  rw [h.aesSecret, h.macSecret, h.ingress]

theorem endsInStep_new (hello : Role → HelloMessage) (handlers : Role → Handlers) {secrets : Role → FrameSecrets}
    (hmirrored : ∀ who : Role, Mirrored (secrets who) (secrets who.peer)) :
    EndsInStep env codec hello handlers (fun who => (FrameCipher.new (secrets who)).egress)
      (.new hello handlers secrets) [] := by
  have hwrote (who : Role) : Wrote env (FrameCipher.new (secrets who)).egress
      (RlpxSession.new (hello who) (handlers who) (secrets who)).stream [] := ⟨rfl, rfl, by simp⟩
  refine ⟨fun _ _ => rfl, ?_, ?_, fun _ => List.nil_prefix, fun who hopened => by cases hopened⟩
  · intro who
    exact ⟨rfl, ⟨rfl, rfl⟩, ⟨[], rfl, fun _ => rfl⟩,
      fun _ => rfl, fun _ => rfl, by simp [Connection.new, RlpxSession.new],
      (hwrote who).framed, fun _ => hwrote who⟩
  · intro who
    refine ⟨rfl, fun _ => rfl, by simp [openedIn, eventsAt], rfl, rfl, Nat.le_refl 0, fun _ => ⟨ingress_new
      (hmirrored who), ?_, fun _ => rfl⟩⟩
    exact List.nil_prefix

theorem mirrored_peer {secrets : Role → FrameSecrets} (h : Mirrored (secrets .initiator) (secrets .responder))
    (who : Role) :
    Mirrored (secrets who) (secrets who.peer) := by
  cases who with
  | initiator => exact h
  | responder => exact h.symm

theorem endsInStep_run (hgreetable : Greetable hello) {secrets : Role → FrameSecrets}
    (hmirrored : Mirrored (secrets .initiator) (secrets .responder)) (actions : List ConnectionAction) :
    EndsInStep env codec hello handlers (fun who => (FrameCipher.new (secrets who)).egress)
      ((Connection.new hello handlers secrets).after env codec actions)
        ((Connection.new hello handlers secrets).trace env codec actions) :=
  runEffects_invariant (I := EndsInStep env codec hello handlers fun who => (FrameCipher.new (secrets who)).egress)
    (fun a _ _ _ h => endsInStep_step hgreetable h a) (endsInStep_new hello handlers (mirrored_peer hmirrored))

end

def sampleParams (who : Role) : SessionConnectParams :=
  match who with
  | .initiator => ⟨ascii ['a'], 30303, .load _ [1, 2, 3]⟩
  | .responder => ⟨ascii ['b', 'c'], 30304, .load _ [4]⟩

theorem greetable_sample : Greetable fun who => (sampleParams who).hello := by
  refine ⟨?_, fun who => by cases who <;> decide⟩
  intro who
  cases who with
  | initiator =>
      rw [WireHello.encode_item]
      decide
  | responder =>
      rw [WireHello.encode_item]
      decide

def sampleHandlers : Handlers where
  hello := true
  disconnect := true
  ping := true
  pong := true
  generic := true

/-- Both ends connect. The responder sends a message and a part of another one, then the connection breaks. -/
def sampleSchedule : List ConnectionAction :=
  [.act .initiator .connect, .act .responder .connect, .arrive .initiator 200, .arrive .responder 1000,
    .act .initiator .connect,
    .arrive .initiator 1000, .act .responder .connect, .act .responder (.use (.call 3 (.post ⟨1, []⟩))),
    .act .responder (.use (.call 4 (.post ⟨16, [1, 2, 3]⟩))), .act .responder (.use (.finish 3)),
    .act .responder (.use (.send true)),
    .act .responder (.use (.send true)), .act .responder (.use (.send true)), .act .responder (.use (.finish 4)),
    .act .responder (.use (.send true)), .act .responder (.use (.send true)),
    .act .responder (.breakWrites 20 .brokenPipe),
    .act .responder (.use (.send true)), .arrive .responder 1000, .act .initiator (.use .receive),
    .act .initiator (.use .receive),
    .act .initiator (.use .receive), .act .initiator (.cut 7 .eof), .act .initiator (.use .receive)]

def sampleTrace : List (Role × SessionEvent) :=
  (Connection.new (fun who => (sampleParams who).hello) (fun _ => sampleHandlers) fun _ => sampleSecrets).trace
    sampleEnv sampleCodec
    sampleSchedule

/-- An `eth` version that `connect` knows. -/
def Supported (cap : Capability) : Prop :=
  cap.name = ethName ∧ kEthProtocolVersion66 ≤ cap.version ∧ cap.version ≤ kEthProtocolVersion69

/-- The highest of the supported versions, or zero. -/
def Negotiated (capabilities : List Capability) (version : UIntTy.Val .uint8) : Prop :=
  (version = 0 ∧ ∀ cap ∈ capabilities, ¬ Supported cap) ∨
    (∃ cap ∈ capabilities, Supported cap ∧ cap.version = version) ∧ ∀ cap ∈ capabilities, Supported cap →
      cap.version ≤ version

theorem Negotiated.consider {capabilities : List Capability} {version : UIntTy.Val .uint8}
    (h : Negotiated capabilities version)
    (cap : Capability) : Negotiated (capabilities ++ [cap]) (considerCapability version cap) := by
  by_cases hsupported : Supported cap
  · have hbest (other : Capability) (hother : other ∈ capabilities) (hs : Supported other) :
        other.version ≤ version := by
      rcases h with ⟨-, hnone⟩ | ⟨-, hbest⟩
      · exact absurd hs (hnone other hother)
      · exact hbest other hother hs
    unfold considerCapability
    rw [if_neg (not_not.mpr hsupported.1)]
    split_ifs with hbetter
    · refine .inr ⟨⟨cap, by simp, hsupported, rfl⟩, ?_⟩
      intro other hother hs
      rcases List.mem_append.mp hother with hold | hnew
      · exact BitVec.le_trans (hbest other hold hs) (BitVec.le_of_lt hbetter.2)
      · rw [List.mem_singleton.mp hnew]
        exact BitVec.le_refl _
    · have hle : cap.version ≤ version := BitVec.not_lt.mp fun hlt => hbetter ⟨hsupported.2, hlt⟩
      rcases h with ⟨rfl, -⟩ | ⟨⟨old, hold, holds⟩, -⟩
      · -- a supported version is above zero
        have := BitVec.le_trans hsupported.2.1 hle
        exact absurd this (by decide)
      · refine .inr ⟨⟨old, List.mem_append_left _ hold, holds⟩, ?_⟩
        intro other hother hs
        rcases List.mem_append.mp hother with hin | hnew
        · exact hbest other hin hs
        · rwa [List.mem_singleton.mp hnew]
  · have hsame : considerCapability version cap = version := by
      unfold considerCapability
      split_ifs with hname hbetter
      · rfl
      · exact absurd ⟨not_not.mp hname, hbetter.1⟩ hsupported
      · rfl
    have hold (other : Capability) (hother : other ∈ capabilities ++ [cap]) (hs : Supported other) :
        other ∈ capabilities := by
      rcases List.mem_append.mp hother with hin | hnew
      · exact hin
      · rw [List.mem_singleton.mp hnew] at hs
        exact absurd hs hsupported
    rw [hsame]
    rcases h with ⟨rfl, hnone⟩ | ⟨⟨best, hmem, hbest⟩, hall⟩
    · exact .inl ⟨rfl, fun other hother hs => hnone other (hold other hother hs) hs⟩
    · exact .inr ⟨⟨best, List.mem_append_left _ hmem, hbest⟩, fun other hother hs =>
        hall other (hold other hother hs) hs⟩

theorem negotiated_negotiateEthVersion (capabilities : List Capability) :
    Negotiated capabilities (negotiateEthVersion capabilities) := by
  induction capabilities using List.reverseRecOn with
  | nil => exact .inl ⟨rfl, by simp⟩
  | append_singleton capabilities cap ih =>
      rw [negotiateEthVersion, List.foldl_append]
      exact ih.consider cap

/-- **A session that is opened knows its peer**, in every run: the name and the port are those of the peer's Hello,
compression is on, and the version is the highest that the peer has advertised and that is supported here. -/
theorem opened_sessions_know_their_peer (env : RlpxPrimitives) (codec : SnappyCodec) (hello : Role → HelloMessage)
    (handlers : Role → Handlers) (secrets : Role → FrameSecrets)
    (hmirrored : Mirrored (secrets .initiator) (secrets .responder))
    (hgreetable : Greetable hello) (actions : List ConnectionAction) (who : Role) :
    ∀ info ∈ openedIn (eventsAt who ((Connection.new hello handlers secrets).trace env codec actions)),
      info.clientId = (hello who.peer).clientId ∧ info.listenPort = (hello who.peer).listenPort ∧
        info.compressionEnabled = true ∧
        Negotiated (hello who.peer).capabilities info.negotiatedEthVersion := by
  intro info hinfo
  have hlearned := ((endsInStep_run hgreetable hmirrored actions).reader who).learned info hinfo
  rw [hlearned]
  exact ⟨rfl, rfl, rfl, negotiated_negotiateEthVersion _⟩

theorem opened_sessions_know_their_peer_sample :
    openedIn (eventsAt .initiator sampleTrace) = [⟨ascii ['b', 'c'], 30304, 69, true⟩] ∧
      ∀ info ∈ openedIn (eventsAt .initiator sampleTrace),
        info.clientId = ascii ['b', 'c'] ∧ info.listenPort = 30304 ∧ info.compressionEnabled = true ∧
          Negotiated (sampleParams .responder).hello.capabilities info.negotiatedEthVersion :=
  ⟨by decide +kernel,
    opened_sessions_know_their_peer sampleEnv sampleCodec (fun who => (sampleParams who).hello)
    (fun _ => sampleHandlers)
      (fun _ => sampleSecrets) ⟨rfl, rfl, rfl, rfl⟩ greetable_sample sampleSchedule .initiator⟩

end DevP2P.Rlpx
