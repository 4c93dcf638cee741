import DevP2P.Discv5.Client

/-!
# What the tasks and the handler do

* `sendOpening_eq_ok_iff`, `sendWhoareyou_eq_ok_iff`, `makeHandshake_eq_ok_iff`, `sendHandshake_eq_ok_iff` : what a
  task that succeeds has drawn, computed, stored and sent;
* `acceptHandshake_eq_ok_iff` : what a handshake that is accepted has passed;
* `handlePacket_message`, `handlePacket_whoareyou`, `handlePacket_handshake` : what the handler does with a
  message without a session, with the answer to a pending request, and with a handshake that is accepted.
-/

namespace DevP2P.Discv5
open DevP2P.Lib DevP2P.Rlp Stateful

variable {env : ClientPrimitives} {c c' : Discv5Client} {input : TaskInput} {peer : ValidatedPeer}

/-! ## Tasks -/

theorem length_findnodeReqId (peer : ValidatedPeer) : (findnodeReqId peer).length ≤ 4 := by
  simp [findnodeReqId, appendU16be]

theorem orForget_eq_ok {α : Type} {key : Bytes} {x : Except Discv5Error α} {a : α} :
    orForget key x c = .ok a c' ↔ x = .ok a ∧ c' = c := by
  cases x with
  | ok b => simp only [orForget, EStateM.Result.ok.injEq, Except.ok.injEq, eq_comm]
  | error e => simp [orForget]

theorem countFailure_eq_ok {α : Type} {x : SendM α} {a : α} : countFailure x c = .ok a c' ↔ x c = .ok a c' := by
  unfold countFailure
  cases x c with
  | ok b t => simp
  | error e t => simp

theorem socketSend_eq_ok_iff {destination : Endpoint} {packet : Bytes} {u : Unit} :
    socketSend input destination packet c = .ok u c' ↔
      input.socketTakes = true ∧ c' = { c with sent := c.sent ++ [(destination, packet)] } := by
  unfold socketSend
  rw [rejectIf_bind_eq_ok, Bool.not_eq_false, modify_apply, EStateM.Result.ok.injEq]
  exact and_congr_right fun _ => ⟨fun h => h.2.symm, fun h => ⟨rfl, h.symm⟩⟩

theorem sendPacket_eq_ok_iff {packet : Bytes} {u : Unit} :
    sendPacket env input packet peer c = .ok u c' ↔
      input.socketTakes = true ∧ ∃ address, env.makeAddress peer.ip = some address ∧
        c' = { c with sent := c.sent ++ [(⟨address, peer.udpPort⟩, packet)] } := by
  unfold sendPacket
  simp only [bind_eq_ok, lift_eq_ok, Outcome.unwrap_eq_ok, socketSend_eq_ok_iff]
  constructor
  · intro ⟨address, t, ⟨haddr, ht⟩, htakes, h⟩
    subst ht
    exact ⟨htakes, address, haddr, h⟩
  · intro ⟨htakes, address, haddr, h⟩
    exact ⟨address, c, ⟨haddr, rfl⟩, htakes, h⟩

theorem sendOpening_eq_ok_iff {u : Unit} :
    sendOpening env input peer c = .ok u c' ↔
      input.socketTakes = true ∧ ∃ nonce, input.nonce = some nonce ∧ ∃ randomMsg, input.randomMsg = some randomMsg ∧
      ∃ encoded, encodePacket env input.iv kFlagMessage nonce
          (makeMessageAuthData (deriveNodeAddress env c.config.publicKey)) randomMsg.bytes
          (deriveNodeAddress env peer.nodeId) = .ok encoded ∧
      ∃ address, env.makeAddress peer.ip = some address ∧
        c' = { c with
          pendingRequests := c.pendingRequests.insert (endpointKeyOf peer.ip peer.udpPort)
            ⟨peer, findnodeReqId peer, nonce, [], .zero _, 0, false⟩
          sent := c.sent ++ [(⟨address, peer.udpPort⟩, encoded.packet)] } := by
  unfold sendOpening
  rw [get_bind]
  simp only [bind_eq_ok, lift_eq_ok, Outcome.unwrap_eq_ok, orForget_eq_ok, sendPacket_eq_ok_iff,
    modify_apply, EStateM.Result.ok.injEq]
  constructor
  · intro ⟨nonce, t, ⟨hnonce, ht⟩, _, t1, ⟨_, ht1⟩, msg, t2, ⟨hmsg, ht2⟩, encoded, t3, ⟨henc, ht3⟩, htakes, address,
      haddr, h⟩
    subst ht ht2 ht3 ht1
    exact ⟨htakes, nonce, hnonce, msg, hmsg, encoded, henc, address, haddr, h⟩
  · intro ⟨htakes, nonce, hnonce, msg, hmsg, encoded, henc, address, haddr, h⟩
    exact ⟨nonce, c, ⟨hnonce, rfl⟩, (), _, ⟨trivial, rfl⟩, msg, _, ⟨hmsg, rfl⟩, encoded, _, ⟨henc, rfl⟩,
      htakes, address,
      haddr, h⟩

theorem sendWhoareyou_eq_ok_iff {sender : Endpoint} {remoteNodeAddr : NodeAddress} {requestNonce : GcmNonce}
    {u : Unit} :
    sendWhoareyou env input sender remoteNodeAddr requestNonce c = .ok u c' ↔
      input.socketTakes = true ∧ ∃ idNonce, input.idNonce = some idNonce ∧
      ∃ encoded, encodePacket env input.iv kFlagWhoareyou requestNonce (idNonce.bytes ++ appendU64be 0) []
          remoteNodeAddr = .ok encoded ∧
        c' = { c with
          sentChallenges := c.sentChallenges.insert (endpointKey env sender)
            ⟨remoteNodeAddr, encoded.headerData, requestNonce, idNonce, 0⟩
          sent := c.sent ++ [(sender, encoded.packet)] } := by
  unfold sendWhoareyou
  simp only [bind_eq_ok, lift_eq_ok, Outcome.unwrap_eq_ok, socketSend_eq_ok_iff,
    modify_apply, EStateM.Result.ok.injEq]
  constructor
  · intro ⟨idNonce, t, ⟨hid, ht⟩, encoded, t1, ⟨henc, ht1⟩, _, t2, ⟨_, ht2⟩, htakes, h⟩
    subst ht ht1 ht2
    exact ⟨htakes, idNonce, hid, encoded, henc, h⟩
  · intro ⟨htakes, idNonce, hid, encoded, henc, h⟩
    exact ⟨idNonce, c, ⟨hid, rfl⟩, encoded, _, ⟨henc, rfl⟩, (), _, ⟨trivial, rfl⟩, htakes, h⟩

theorem buildLocalEnr_eq_ok_iff {raw : Bytes} :
    buildLocalEnr env c = .ok raw c' ↔
      (∃ port, c.boundPort = some port ∧ makeLocalEnrRecord env c.config port = .ok raw) ∧ c' = c := by
  unfold buildLocalEnr
  rw [get_bind]
  simp only [bind_eq_ok, lift_eq_ok, Outcome.unwrap_eq_ok]
  constructor
  · intro ⟨port, t, ⟨hport, ht⟩, hraw, h⟩
    subst ht
    exact ⟨⟨port, hport, hraw⟩, h⟩
  · intro ⟨⟨port, hport, hraw⟩, h⟩
    exact ⟨port, c, ⟨hport, rfl⟩, hraw, h⟩

theorem enrForChallenge_eq_ok_iff {recordSeq : UInt64} {raw : Bytes} :
    enrForChallenge env recordSeq c = .ok raw c' ↔
      (if recordSeq.toNat < kInitialEnrSeq.toNat then
        ∃ port, c.boundPort = some port ∧ makeLocalEnrRecord env c.config port = .ok raw
      else raw = []) ∧ c' = c := by
  unfold enrForChallenge
  split_ifs with h
  · exact buildLocalEnr_eq_ok_iff
  · rw [pure_apply, EStateM.Result.ok.injEq, eq_comm, @eq_comm _ c]

theorem makeHandshake_eq_ok_iff {pending : PendingRequest} {handshake : Handshake} :
    makeHandshake env input peer pending c = .ok handshake c' ↔
      (∃ eph, Rlpx.Ecdh.generateEphemeralKeypair env.toRlpxPrimitives input.keyDraws = .ok eph ∧
      ∃ ephCompressed, compressPublicKey env eph.publicKey = .ok ephCompressed ∧
      ∃ signature, makeIdSignature env c.config.privateKey pending.challengeData ephCompressed.bytes
          (deriveNodeAddress env peer.nodeId) = .ok signature ∧
      ∃ record, enrForChallenge env pending.recordSeq c = .ok record c ∧
      ∃ shared, sharedSecretFromUncompressedPubkey env pending.peer.nodeId eph.privateKey = .ok shared ∧
      ∃ plaintext, makeFindnodePlaintext pending.reqId = .ok plaintext ∧
      ∃ nonce, input.nonce = some nonce ∧
      ∃ encoded, encodePacket env input.iv kFlagHandshake nonce
          (makeHandshakeAuthData (deriveNodeAddress env c.config.publicKey) signature.bytes ephCompressed.bytes record)
          [] (deriveNodeAddress env peer.nodeId) = .ok encoded ∧
      ∃ encrypted, encryptGcm env (deriveSessionKeys env shared pending.challengeData
          (deriveNodeAddress env c.config.publicKey) (deriveNodeAddress env peer.nodeId)).writeKey nonce plaintext
          encoded.headerData = .ok encrypted ∧
        handshake = ⟨encoded.packet ++ encrypted,
          ⟨(deriveSessionKeys env shared pending.challengeData (deriveNodeAddress env c.config.publicKey)
              (deriveNodeAddress env peer.nodeId)).writeKey,
            (deriveSessionKeys env shared pending.challengeData (deriveNodeAddress env c.config.publicKey)
              (deriveNodeAddress env peer.nodeId)).readKey,
            deriveNodeAddress env peer.nodeId, pending.peer.nodeId, pending.reqId⟩⟩) ∧ c' = c := by
  unfold makeHandshake
  rw [get_bind]
  simp only [bind_eq_ok, lift_eq_ok, Outcome.unwrap_eq_ok, Outcome.mapError_eq_ok,
    pure_apply, EStateM.Result.ok.injEq]
  constructor
  · intro ⟨eph, t, ⟨heph, ht⟩, comp, t1, ⟨hcomp, ht1⟩, sig, t2, ⟨hsig, ht2⟩, record, t3, hrecord, shared, t4,
      ⟨hshared, ht4⟩, plaintext, t5, ⟨hplain, ht5⟩, nonce, t6, ⟨hnonce, ht6⟩, encoded, t7, ⟨henc, ht7⟩, encrypted, t8,
      ⟨hcrypt, ht8⟩, h, hc⟩
    subst ht ht1 ht2
    obtain rfl := (enrForChallenge_eq_ok_iff.mp hrecord).2
    subst ht4 ht5 ht6 ht7 ht8
    exact ⟨⟨eph, heph, comp, hcomp, sig, hsig, record, hrecord, shared, hshared, plaintext, hplain, nonce, hnonce,
      encoded, henc, encrypted, hcrypt, h.symm⟩, hc.symm⟩
  · intro ⟨⟨eph, heph, comp, hcomp, sig, hsig, record, hrecord, shared, hshared, plaintext, hplain, nonce, hnonce,
      encoded, henc, encrypted, hcrypt, h⟩, hc⟩
    exact ⟨eph, c, ⟨heph, rfl⟩, comp, c, ⟨hcomp, rfl⟩, sig, c, ⟨hsig, rfl⟩, record, c, hrecord, shared, c,
      ⟨hshared, rfl⟩, plaintext, c, ⟨hplain, rfl⟩, nonce, c, ⟨hnonce, rfl⟩, encoded, c, ⟨henc, rfl⟩, encrypted, c,
      ⟨hcrypt, rfl⟩, h.symm, hc.symm⟩

theorem sendHandshake_eq_ok_iff {pending : PendingRequest} {u : Unit} :
    sendHandshake env input peer pending c = .ok u c' ↔
      input.socketTakes = true ∧ ∃ handshake, makeHandshake env input peer pending
          (counting (fun n => { n with outboundHandshakeAttempts := n.outboundHandshakeAttempts + 1 }) c) =
        .ok handshake (counting (fun n => { n with outboundHandshakeAttempts := n.outboundHandshakeAttempts + 1 }) c) ∧
      ∃ address, env.makeAddress peer.ip = some address ∧
        c' = { counting (fun n => { n with outboundHandshakeAttempts := n.outboundHandshakeAttempts + 1 }) c with
          sessions := c.sessions.insert (endpointKeyOf peer.ip peer.udpPort) handshake.session
          pendingRequests := c.pendingRequests.erase (endpointKeyOf peer.ip peer.udpPort)
          sent := c.sent ++ [(⟨address, peer.udpPort⟩, handshake.packet)] } := by
  unfold sendHandshake
  simp only [bind_eq_ok, count, modify_apply, countFailure_eq_ok, sendPacket_eq_ok_iff,
    EStateM.Result.ok.injEq]
  constructor
  · intro ⟨_, t, ⟨_, ht⟩, handshake, t1, hmake, _, t2, ⟨_, ht2⟩, htakes, address, haddr, h⟩
    subst ht ht2
    obtain rfl := (makeHandshake_eq_ok_iff.mp hmake).2
    exact ⟨htakes, handshake, hmake, address, haddr, h⟩
  · intro ⟨htakes, handshake, hmake, address, haddr, h⟩
    exact ⟨(), _, ⟨trivial, rfl⟩, handshake, _, hmake, (), _, ⟨trivial, rfl⟩, htakes, address, haddr, h⟩

/-! ## Packets -/

section

variable {data : Bytes} {sender : Endpoint} {packet : PacketView}

theorem acceptOr_of_ok {α : Type} {f : Discv5Client → Discv5Client} {x : Except EnrFault α} {a : α} (h : x = .ok a) :
    acceptOr f x c = .ok a c := by
  rw [h]
  rfl

theorem require_of {f : Counters → Counters} {p : Prop} [Decidable p] (h : p) : require f p c = .ok () c := by
  unfold require
  rw [if_pos h]

theorem require_of_not {f : Counters → Counters} {p : Prop} [Decidable p] (h : ¬ p) :
    require f p c = .error (.error ()) (counting f c) := by
  unfold require
  rw [if_neg h]
  rfl

theorem acceptOr_eq_ok {α : Type} {f : Discv5Client → Discv5Client} {x : Except EnrFault α} {a : α} :
    acceptOr f x c = .ok a c' ↔ x = .ok a ∧ c' = c := by
  rcases x with (e | _) | b
  · simp [acceptOr]
  · simp [acceptOr]
  · simp only [acceptOr, EStateM.Result.ok.injEq, Except.ok.injEq, eq_comm]

theorem require_eq_ok {f : Counters → Counters} {p : Prop} [Decidable p] {u : Unit} :
    require f p c = .ok u c' ↔ p ∧ c' = c := by
  by_cases h : p
  · rw [require_of h, EStateM.Result.ok.injEq, eq_comm (a := c)]
    exact ⟨fun h' => ⟨h, h'.2⟩, fun h' => ⟨rfl, h'.2⟩⟩
  · rw [require_of_not h]
    exact ⟨nofun, fun h' => absurd h'.1 h⟩

theorem count_apply {ε : Type} (f : Counters → Counters) :
    (count f : EStateM ε Discv5Client Unit) c = .ok () (counting f c) := rfl

theorem handlePacket_of_decode
    (hdecode : decodePacket env data (deriveNodeAddress env c.config.publicKey) = .ok packet)
    (h : (if packet.flag = kFlagWhoareyou then handleWhoareyou packet (endpointKey env sender)
      else if packet.flag = kFlagMessage then handleMessage env packet (endpointKey env sender) sender
      else if packet.flag = kFlagHandshake then handleHandshake env packet (endpointKey env sender) sender
      else pure ()) c = .ok () c') :
    handlePacket env data sender c = some c' := by
  have hsteps : handlePacketSteps env data sender c = .ok () c' := by
    unfold handlePacketSteps
    rw [get_bind, bind_of_ok (acceptOr_of_ok (Outcome.mapError_eq_ok.mpr hdecode))]
    exact h
  unfold handlePacket
  rw [hsteps]

theorem handlePacket_message
    (hdecode : decodePacket env data (deriveNodeAddress env c.config.publicKey) = .ok packet)
    (hflag : packet.flag = kFlagMessage) (hsize : packet.authSize.toNat = kMessageAuthDataBytes)
    (hsession : c.sessions.lookup (endpointKey env sender) = none) :
    handlePacket env data sender c = some
      { counting (fun n => { n with inboundMessageSeen := n.inboundMessageSeen + 1 }) c with
        tasks := c.tasks ++ [.sendWhoareyou sender (.load _ packet.authData) packet.nonce] } := by
  apply handlePacket_of_decode hdecode
  rw [hflag, if_neg (by decide), if_pos rfl]
  unfold handleMessage
  rw [bind_of_ok (count_apply _), bind_of_ok (require_of hsize), get_bind]
  have hnone : sessionWith (counting (fun n => { n with inboundMessageSeen := n.inboundMessageSeen + 1 }) c)
      (endpointKey env sender) (.load _ packet.authData) = none := by
    show (c.sessions.lookup (endpointKey env sender)).filter _ = none
    rw [hsession]
    rfl
  rw [hnone]
  rfl

theorem handlePacket_whoareyou {pending : PendingRequest}
    (hdecode : decodePacket env data (deriveNodeAddress env c.config.publicKey) = .ok packet)
    (hflag : packet.flag = kFlagWhoareyou) (hsize : packet.authSize.toNat = kWhoareyouAuthDataBytes)
    (hpending : c.pendingRequests.lookup (endpointKey env sender) = some pending)
    (hnonce : pending.requestNonce = packet.nonce) :
    handlePacket env data sender c = some
      { counting (fun n => { n with whoareyouPackets := n.whoareyouPackets + 1 }) c with
        pendingRequests := c.pendingRequests.insert (endpointKey env sender) { pending with
          idNonce := .load _ packet.authData
          recordSeq := readU64be (packet.authData.drop kWhoareyouIdNonceBytes)
          challengeData := packet.headerData
          haveChallenge := true }
        tasks := c.tasks ++ [.retry pending.peer] } := by
  apply handlePacket_of_decode hdecode
  rw [hflag, if_pos rfl]
  unfold handleWhoareyou
  rw [bind_of_ok (require_of hsize), get_bind,
    bind_of_ok (acceptOr_of_ok (Outcome.unwrap_eq_ok.mpr hpending)), bind_of_ok (require_of hnonce)]
  rfl

theorem acceptHandshake_of {key : Bytes} {auth : HandshakeAuthView} {challenge : ChallengeState}
    {record verified : EnrRecord} {shared : FixedBytes kCompressedKeyBytes}
    (hauth : parseHandshakeAuth packet.authData = .ok auth)
    (hchallenge : c.sentChallenges.lookup key = some challenge) (hsrc : auth.srcId = challenge.remoteNodeAddr)
    (hrecord : auth.record ≠ []) (hdecode : EnrParser.decodeRlp env.toEnrPrimitives auth.record = .ok record)
    (hverify : EnrParser.verifySignature env.toEnrPrimitives record = .ok verified)
    (haddr : deriveNodeAddress env verified.nodeId = auth.srcId)
    (hid : verifyIdSignature env verified.nodeId auth.signature challenge.challengeData auth.pubkey
      (deriveNodeAddress env c.config.publicKey) = true)
    (hshared : sharedSecretFromCompressedPubkey env auth.pubkey c.config.privateKey = .ok shared) :
    acceptHandshake env packet key c = .ok
      ⟨(deriveSessionKeys env shared challenge.challengeData auth.srcId
          (deriveNodeAddress env c.config.publicKey)).readKey,
        (deriveSessionKeys env shared challenge.challengeData auth.srcId
          (deriveNodeAddress env c.config.publicKey)).writeKey,
        auth.srcId, verified.nodeId, []⟩ c := by
  unfold acceptHandshake
  rw [bind_of_ok (acceptOr_of_ok (Outcome.mapError_eq_ok.mpr hauth)), get_bind,
    bind_of_ok (acceptOr_of_ok (Outcome.unwrap_eq_ok.mpr hchallenge)), bind_of_ok (require_of hsrc),
    bind_of_ok (require_of hrecord), bind_of_ok (acceptOr_of_ok hdecode),
    bind_of_ok (acceptOr_of_ok hverify), bind_of_ok (require_of haddr),
    bind_of_ok (require_of hid), bind_of_ok (acceptOr_of_ok (Outcome.mapError_eq_ok.mpr hshared))]
  rfl

theorem acceptHandshake_eq_ok_iff {key : Bytes} {session : SessionState} :
    acceptHandshake env packet key c = .ok session c' ↔
      (∃ auth, parseHandshakeAuth packet.authData = .ok auth ∧
      ∃ challenge, c.sentChallenges.lookup key = some challenge ∧ auth.srcId = challenge.remoteNodeAddr ∧
      auth.record ≠ [] ∧
      ∃ record, EnrParser.decodeRlp env.toEnrPrimitives auth.record = .ok record ∧
      ∃ verified, EnrParser.verifySignature env.toEnrPrimitives record = .ok verified ∧
        deriveNodeAddress env verified.nodeId = auth.srcId ∧
        verifyIdSignature env verified.nodeId auth.signature challenge.challengeData auth.pubkey
          (deriveNodeAddress env c.config.publicKey) = true ∧
      ∃ shared, sharedSecretFromCompressedPubkey env auth.pubkey c.config.privateKey = .ok shared ∧
        session = ⟨(deriveSessionKeys env shared challenge.challengeData auth.srcId
            (deriveNodeAddress env c.config.publicKey)).readKey,
          (deriveSessionKeys env shared challenge.challengeData auth.srcId
            (deriveNodeAddress env c.config.publicKey)).writeKey,
          auth.srcId, verified.nodeId, []⟩) ∧ c' = c := by
  constructor
  · unfold acceptHandshake
    simp only [bind_eq_ok, acceptOr_eq_ok, require_eq_ok, Outcome.mapError_eq_ok, Outcome.unwrap_eq_ok,
      pure_apply, EStateM.Result.ok.injEq]
    intro ⟨auth, _, ⟨hauth, h1⟩, d, _, hget, challenge, _, ⟨hchallenge, h2⟩, _, _, ⟨hsrc, h3⟩, _, _,
      ⟨hrecord, h4⟩, record, _,
      ⟨hdecode, h5⟩, verified, _, ⟨hverify, h6⟩, _, _, ⟨haddr, h7⟩, _, _, ⟨hid, h8⟩, shared, _,
      ⟨hshared, h9⟩, hsession, hc⟩
    subst h1
    obtain ⟨rfl, rfl⟩ := EStateM.Result.ok.inj hget
    subst h2 h3 h4 h5 h6 h7 h8 h9
    exact ⟨⟨auth, hauth, challenge, hchallenge, hsrc, hrecord, record, hdecode, verified, hverify, haddr, hid,
      shared, hshared,
      hsession.symm⟩, hc.symm⟩
  · intro ⟨⟨auth, hauth, challenge, hchallenge, hsrc, hrecord, record, hdecode, verified, hverify, haddr, hid,
      shared, hshared,
      hsession⟩, hc⟩
    rw [hsession, hc]
    exact acceptHandshake_of hauth hchallenge hsrc hrecord hdecode hverify haddr hid hshared

theorem handleFirstMessage_findnode {key : Bytes} {session : SessionState} {body reqId : Bytes}
    (hreq : parseFindnodeReqId body = .ok reqId) :
    handleFirstMessage key session (kMsgFindNode :: body) sender c = .ok () { c with
      sessions := c.sessions.insert key { session with lastReqId := reqId }
      tasks := c.tasks ++ [.handleFindnodeRequest reqId sender] } := by
  unfold handleFirstMessage
  simp only [if_pos]
  rw [bind_of_ok (acceptOr_of_ok (Outcome.mapError_eq_ok.mpr hreq))]
  rfl

theorem handlePacket_handshake {session : SessionState} {body reqId : Bytes}
    (hdecode : decodePacket env data (deriveNodeAddress env c.config.publicKey) = .ok packet)
    (hflag : packet.flag = kFlagHandshake)
    (haccept : acceptHandshake env packet (endpointKey env sender)
        (counting (fun n => { n with inboundHandshakeSeen := n.inboundHandshakeSeen + 1 }) c) =
      .ok session (counting (fun n => { n with inboundHandshakeSeen := n.inboundHandshakeSeen + 1 }) c))
    (hdecrypt : decryptGcm env session.readKey packet.nonce packet.msgData packet.headerData =
      .ok (kMsgFindNode :: body))
    (hreq : parseFindnodeReqId body = .ok reqId) :
    handlePacket env data sender c = some
      { counting (fun n => { n with
            inboundHandshakeSeen := n.inboundHandshakeSeen + 1
            handshakePackets := n.handshakePackets + 1 }) c with
        sessions := (c.sessions.insert (endpointKey env sender) session).insert (endpointKey env sender)
          { session with lastReqId := reqId }
        sentChallenges := c.sentChallenges.erase (endpointKey env sender)
        tasks := c.tasks ++ [.handleFindnodeRequest reqId sender] } := by
  apply handlePacket_of_decode hdecode
  rw [hflag, if_neg (by decide), if_neg (by decide), if_pos rfl]
  unfold handleHandshake
  rw [bind_of_ok (count_apply _), bind_of_ok haccept, bind_of_ok (modify_apply _ _),
    bind_of_ok (acceptOr_of_ok (Outcome.mapError_eq_ok.mpr hdecrypt)), bind_of_ok (count_apply _),
    bind_of_ok (modify_apply _ _), handleFirstMessage_findnode hreq]
  rfl

end

end DevP2P.Discv5
