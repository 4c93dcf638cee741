import DevP2P.Discv5.ClientSteps

/-!
# The three packets of a session

One client opens with a message that cannot be decrypted, the other one answers with a challenge, the first one
answers that with a handshake.

* `Exchange` : the three packets, with whatever else the clients do in between at other endpoints;
* `Exchange.opened`, `Exchange.challenged`, `Exchange.answered` : what each packet holds and what is stored with it;
* `exists_exchange` : the exchange takes place when every random draw succeeds.
-/

namespace DevP2P.Discv5
open DevP2P.Lib DevP2P.Rlp

/-- Nothing has happened yet at the endpoint under `key`. -/
structure Fresh (key : Bytes) (c : Discv5Client) : Prop where
  session : c.sessions.lookup key = none
  pending : c.pendingRequests.lookup key = none
  challenge : c.sentChallenges.lookup key = none

/-- What a client does between two steps leaves the entries under `key` alone. -/
structure Untouched (key : Bytes) (c c' : Discv5Client) : Prop where
  config : c'.config = c.config
  boundPort : c'.boundPort = c.boundPort
  session : c'.sessions.lookup key = c.sessions.lookup key
  pending : c'.pendingRequests.lookup key = c.pendingRequests.lookup key
  challenge : c'.sentChallenges.lookup key = c.sentChallenges.lookup key

theorem Untouched.refl (key : Bytes) (c : Discv5Client) : Untouched key c c := ⟨rfl, rfl, rfl, rfl, rfl⟩

/-- The client `a` at `endpointA`, with an entry `peer` for the client `b` at `endpointB`, opens; `b` challenges
it; `a` answers. A state with a prime is the one in which the next step finds the client. -/
structure Exchange (env : ClientPrimitives) (peer : ValidatedPeer) (endpointA endpointB : Endpoint) where
  openInput : TaskInput
  challengeInput : TaskInput
  answerInput : TaskInput
  opening : Bytes
  whoareyou : Bytes
  handshake : Bytes
  a : Discv5Client
  aOpened : Discv5Client
  aOpened' : Discv5Client
  aChallenged : Discv5Client
  aChallenged' : Discv5Client
  aAnswered : Discv5Client
  b : Discv5Client
  bOpened : Discv5Client
  bOpened' : Discv5Client
  bChallenged : Discv5Client
  bChallenged' : Discv5Client
  /-- The arguments of the two tasks that are spawned. -/
  remoteNodeAddr : NodeAddress
  requestNonce : GcmNonce
  retried : ValidatedPeer
  /-- The challenge that `b` keeps and the ephemeral key that `a` draws. -/
  challenge : ChallengeState
  ephemeral : Rlpx.Ecdh.KeyPair
  opens : sendFindnode env openInput peer a = .ok () aOpened
  opening_sent : aOpened.sent = a.sent ++ [(endpointB, opening)]
  opening_handled : handlePacket env opening endpointA b = some bOpened
  challenge_spawned : bOpened.tasks = b.tasks ++ [.sendWhoareyou endpointA remoteNodeAddr requestNonce]
  b_waits : Untouched (endpointKey env endpointA) bOpened bOpened'
  challenges : sendWhoareyou env challengeInput endpointA remoteNodeAddr requestNonce bOpened' = .ok () bChallenged
  whoareyou_sent : bChallenged.sent = bOpened'.sent ++ [(endpointA, whoareyou)]
  challenge_kept : bChallenged.sentChallenges.lookup (endpointKey env endpointA) = some challenge
  a_waits : Untouched (endpointKey env endpointB) aOpened aOpened'
  whoareyou_handled : handlePacket env whoareyou endpointB aOpened' = some aChallenged
  retry_spawned : aChallenged.tasks = aOpened'.tasks ++ [.retry retried]
  a_waits' : Untouched (endpointKey env endpointB) aChallenged aChallenged'
  ephemeral_drawn : Rlpx.Ecdh.generateEphemeralKeypair env.toRlpxPrimitives answerInput.keyDraws = .ok ephemeral
  answers : sendFindnode env answerInput retried aChallenged' = .ok () aAnswered
  handshake_sent : aAnswered.sent = aChallenged'.sent ++ [(endpointB, handshake)]
  b_waits' : Untouched (endpointKey env endpointA) bChallenged bChallenged'

namespace Exchange

variable {env : ClientPrimitives} {peer : ValidatedPeer} {endpointA endpointB : Endpoint}

/-- The entry of `a` for `b` holds the key of `b` and the address that the packets of `b` come from, and neither
client has an entry for the other one's endpoint. -/
structure Setting (x : Exchange env peer endpointA endpointB) : Prop where
  node : peer.nodeId = x.b.config.publicKey
  ip : peer.ip = env.addressToString endpointB.address
  port : peer.udpPort = endpointB.port
  freshA : Fresh (endpointKey env endpointB) x.a
  freshB : Fresh (endpointKey env endpointA) x.b

end Exchange

theorem endpointKeyOf_eq {env : ClientPrimitives} {ip : Bytes} {port : UInt16} {endpoint : Endpoint}
    (hip : ip = env.addressToString endpoint.address) (hport : port = endpoint.port) :
    endpointKeyOf ip port = endpointKey env endpoint := by
  rw [hip, hport]
  rfl

theorem packet_of_sent {s : List (Endpoint × Bytes)} {d d' : Endpoint} {p p' : Bytes}
    (h : s ++ [(d, p)] = s ++ [(d', p')]) : p = p' := by
  have hlast := List.append_cancel_left h
  exact (Prod.mk.inj (List.cons.inj hlast).1).2

namespace Exchange

variable {env : ClientPrimitives} {peer : ValidatedPeer} {endpointA endpointB : Endpoint}
  {x : Exchange env peer endpointA endpointB}

theorem Setting.key (h : x.Setting) : endpointKeyOf peer.ip peer.udpPort = endpointKey env endpointB :=
  endpointKeyOf_eq h.ip h.port

/-! ## What the packets hold -/

theorem message_view {iv : Option MaskingIv} {nonce : GcmNonce} {localNodeAddr destination : NodeAddress}
    {msgData : Bytes} {encoded : EncodedPacket}
    (h : encodePacket env iv kFlagMessage nonce (makeMessageAuthData localNodeAddr) msgData destination = .ok encoded) :
    ∃ view, decodePacket env encoded.packet destination = .ok view ∧ view.flag = kFlagMessage ∧
      view.authSize.toNat = kMessageAuthDataBytes ∧ view.authData = localNodeAddr.bytes ∧ view.nonce = nonce := by
  have hlen : (makeMessageAuthData localNodeAddr).length = kMessageAuthDataBytes := FixedBytes.length_bytes _
  have hdecode := decodePacket_encodePacket (by rw [hlen]; decide) h []
  rw [List.append_nil] at hdecode
  refine ⟨_, hdecode, rfl, ?_, rfl, rfl⟩
  show (UInt16.ofNat (makeMessageAuthData localNodeAddr).length).toNat = _
  rw [hlen]
  rfl

theorem whoareyou_view {iv : Option MaskingIv} {nonce : GcmNonce} {idNonce : FixedBytes kWhoareyouIdNonceBytes}
    {destination : NodeAddress} {encoded : EncodedPacket}
    (h : encodePacket env iv kFlagWhoareyou nonce (idNonce.bytes ++ appendU64be 0) [] destination = .ok encoded) :
    ∃ view, decodePacket env encoded.packet destination = .ok view ∧ view.flag = kFlagWhoareyou ∧
      view.authSize.toNat = kWhoareyouAuthDataBytes ∧ view.nonce = nonce ∧
      readU64be (view.authData.drop kWhoareyouIdNonceBytes) = 0 ∧ view.headerData = encoded.headerData := by
  have hlen : (idNonce.bytes ++ appendU64be 0).length = kWhoareyouAuthDataBytes := by
    rw [List.length_append, idNonce.size_eq]
    rfl
  have hdecode := decodePacket_encodePacket (by rw [hlen]; decide) h []
  rw [List.append_nil] at hdecode
  refine ⟨_, hdecode, rfl, ?_, rfl, ?_, rfl⟩
  · show (UInt16.ofNat (idNonce.bytes ++ appendU64be 0).length).toNat = _
    rw [hlen]
    rfl
  · show readU64be ((idNonce.bytes ++ appendU64be 0).drop kWhoareyouIdNonceBytes) = 0
    rw [List.drop_left' idNonce.size_eq]
    decide

/-! ## The opening -/

/-- The request that `a` waits with. -/
def openRequest (peer : ValidatedPeer) (nonce : GcmNonce) : PendingRequest :=
  ⟨peer, findnodeReqId peer, nonce, [], .zero _, 0, false⟩

/-- The opening message leaves a pending request behind, and `b` reads from it the address of `a` and the nonce of
that request. -/
theorem opened (h : x.Setting) : ∃ nonce,
    x.aOpened.pendingRequests.lookup (endpointKey env endpointB) = some (openRequest peer nonce) ∧
    x.aOpened.sessions.lookup (endpointKey env endpointB) = none ∧
    x.aOpened.config = x.a.config ∧ x.aOpened.boundPort = x.a.boundPort ∧
    ∃ view, decodePacket env x.opening (deriveNodeAddress env x.b.config.publicKey) = .ok view ∧
      view.flag = kFlagMessage ∧ view.authSize.toNat = kMessageAuthDataBytes ∧
      view.authData = (deriveNodeAddress env x.a.config.publicKey).bytes ∧ view.nonce = nonce := by
  have hrun : sendOpening env x.openInput peer x.a = .ok () x.aOpened := by
    have := x.opens
    unfold sendFindnode at this
    rwa [h.key, h.freshA.session, h.freshA.pending] at this
  obtain ⟨-, nonce, -, msg, -, encoded, hencoded, address, -, hafter⟩ := sendOpening_eq_ok_iff.mp hrun
  have hsent := x.opening_sent
  rw [hafter] at hsent ⊢
  have hpacket : encoded.packet = x.opening := packet_of_sent hsent
  rw [h.node] at hencoded
  obtain ⟨view, hview, hflag, hsize, hauth, hnonce⟩ := message_view hencoded
  rw [hpacket] at hview
  refine ⟨nonce, ?_, h.freshA.session, rfl, rfl, view, hview, hflag, hsize, hauth, hnonce⟩
  rw [← h.key]
  exact Finmap.lookup_insert _

/-! ## The challenge -/

/-- `b` challenges the address in the opening message, under the nonce of the request, and keeps as challenge data
the header that `a` gets. -/
theorem challenged (h : x.Setting) {view : PacketView}
    (hview : decodePacket env x.opening (deriveNodeAddress env x.b.config.publicKey) = .ok view)
    (hflag : view.flag = kFlagMessage) (hsize : view.authSize.toNat = kMessageAuthDataBytes)
    (haddr : view.authData = (deriveNodeAddress env x.a.config.publicKey).bytes) :
    x.bChallenged.config = x.b.config ∧
    x.challenge.remoteNodeAddr = deriveNodeAddress env x.a.config.publicKey ∧
    ∃ view', decodePacket env x.whoareyou (deriveNodeAddress env x.a.config.publicKey) = .ok view' ∧
      view'.flag = kFlagWhoareyou ∧ view'.authSize.toNat = kWhoareyouAuthDataBytes ∧ view'.nonce = view.nonce ∧
      readU64be (view'.authData.drop kWhoareyouIdNonceBytes) = 0 ∧ view'.headerData = x.challenge.challengeData := by
  have hopened := Option.some.inj
    (x.opening_handled.symm.trans (handlePacket_message hview hflag hsize h.freshB.session))
  have hspawned := x.challenge_spawned
  rw [hopened] at hspawned
  have htask := (List.cons.inj (List.append_cancel_left hspawned)).1
  obtain ⟨-, hremote, hnonce⟩ := Task.sendWhoareyou.inj htask
  rw [haddr, FixedBytes.load_bytes] at hremote
  obtain ⟨-, idNonce, -, encoded, hencoded, hafter⟩ := sendWhoareyou_eq_ok_iff.mp x.challenges
  have hconfig : x.bOpened'.config = x.b.config := by
    rw [x.b_waits.config, hopened]
    rfl
  have hsent := x.whoareyou_sent
  have hkept := x.challenge_kept
  rw [hafter] at hsent hkept ⊢
  have hpacket : encoded.packet = x.whoareyou := packet_of_sent hsent
  have hchallenge : x.challenge = _ := Option.some.inj (hkept.symm.trans (Finmap.lookup_insert _))
  obtain ⟨view', hview', hflag', hsize', hnonce', hseq, hheader⟩ := whoareyou_view hencoded
  rw [hpacket, ← hremote] at hview'
  rw [hchallenge]
  exact ⟨hconfig, hremote.symm, view', hview', hflag', hsize', hnonce'.trans hnonce.symm, hseq, hheader⟩

/-! ## The answer -/

/-- `a` keeps the challenge data of `b` with its request and sends the request again. -/
theorem retried_spec (h : x.Setting) : ∃ pending,
    x.aChallenged'.pendingRequests.lookup (endpointKey env endpointB) = some pending ∧
    pending.peer = peer ∧ pending.reqId = findnodeReqId peer ∧ pending.challengeData = x.challenge.challengeData ∧
    pending.recordSeq = 0 ∧ pending.haveChallenge = true ∧ x.retried = peer ∧
    x.aChallenged'.sessions.lookup (endpointKey env endpointB) = none ∧
    x.aChallenged'.config = x.a.config ∧ x.aChallenged'.boundPort = x.a.boundPort ∧
    x.bChallenged.config = x.b.config ∧
    x.challenge.remoteNodeAddr = deriveNodeAddress env x.a.config.publicKey := by
  obtain ⟨nonce, hpending, hsession, hconfig, hport, view, hview, hflag, hsize, haddr, hnonce⟩ := opened h
  obtain ⟨hconfigB, hremote, view', hview', hflag', hsize', hnonce', hseq, hheader⟩ :=
    challenged h hview hflag hsize haddr
  have hpending' : x.aOpened'.pendingRequests.lookup (endpointKey env endpointB) = some (openRequest peer nonce) := by
    rw [x.a_waits.pending, hpending]
  have hconfig' : x.aOpened'.config = x.a.config := by rw [x.a_waits.config, hconfig]
  have hview'' : decodePacket env x.whoareyou (deriveNodeAddress env x.aOpened'.config.publicKey) = .ok view' := by
    rw [hconfig', hview']
  have hnonce'' : (openRequest peer nonce).requestNonce = view'.nonce := by rw [hnonce', hnonce]; rfl
  have hhandled := Option.some.inj
    (x.whoareyou_handled.symm.trans (handlePacket_whoareyou hview'' hflag' hsize' hpending' hnonce''))
  have hspawned := x.retry_spawned
  rw [hhandled] at hspawned
  have hretried : peer = x.retried := Task.retry.inj (List.cons.inj (List.append_cancel_left hspawned)).1
  have hlookup := x.a_waits'.pending
  have hsessions := x.a_waits'.session
  have hconfigs := x.a_waits'.config
  have hports := x.a_waits'.boundPort
  rw [hhandled] at hlookup hsessions hconfigs hports
  refine ⟨_, hlookup.trans (Finmap.lookup_insert _), rfl, rfl, hheader, hseq, rfl, hretried.symm, ?_, ?_, ?_, hconfigB,
    hremote⟩
  · exact hsessions.trans (x.a_waits.session.trans hsession)
  · exact hconfigs.trans hconfig'
  · exact hports.trans (x.a_waits.boundPort.trans hport)

/-- The keys of the session, as `a` derives them from the shared secret. -/
def keys (x : Exchange env peer endpointA endpointB) (shared : FixedBytes kCompressedKeyBytes) : SessionKeys :=
  deriveSessionKeys env shared x.challenge.challengeData (deriveNodeAddress env x.a.config.publicKey)
    (deriveNodeAddress env x.b.config.publicKey)

/-- What the handshake of `a` is made of, and the session that `a` stores. -/
theorem answered (h : x.Setting) {E : env.secp.PubKey} (hread : env.secp.ReadBack E)
    (hE : env.secp.pubkeyCreate x.ephemeral.privateKey = some E) :
    ∃ port record signature shared nonce encoded encrypted,
      x.a.boundPort = some port ∧ makeLocalEnrRecord env x.a.config port = .ok record ∧
      makeIdSignature env x.a.config.privateKey x.challenge.challengeData (env.secp.serializeCompressed E).bytes
        (deriveNodeAddress env x.b.config.publicKey) = .ok signature ∧
      sharedSecretFromUncompressedPubkey env x.b.config.publicKey x.ephemeral.privateKey = .ok shared ∧
      encodePacket env x.answerInput.iv kFlagHandshake nonce
        (makeHandshakeAuthData (deriveNodeAddress env x.a.config.publicKey) signature.bytes
          (env.secp.serializeCompressed E).bytes record) [] (deriveNodeAddress env x.b.config.publicKey) =
        .ok encoded ∧
      encryptGcm env (x.keys shared).writeKey nonce (kMsgFindNode :: findnodeBytes (findnodeReqId peer))
        encoded.headerData = .ok encrypted ∧
      x.handshake = encoded.packet ++ encrypted ∧
      x.aAnswered.sessions.lookup (endpointKey env endpointB) = some
        ⟨(x.keys shared).writeKey, (x.keys shared).readKey, deriveNodeAddress env x.b.config.publicKey,
          x.b.config.publicKey, findnodeReqId peer⟩ := by
  obtain ⟨pending, hpending, hpeer, hreq, hdata, hseq, hhave, hretried, hsession, hconfig, hport, -, -⟩ :=
    retried_spec h
  have hrun : sendHandshake env x.answerInput peer pending x.aChallenged' = .ok () x.aAnswered := by
    have := x.answers
    unfold sendFindnode at this
    rw [hretried, h.key, hsession, hpending] at this
    simpa only [hhave, if_true] using this
  obtain ⟨-, handshake, hmake, address, -, hafter⟩ := sendHandshake_eq_ok_iff.mp hrun
  obtain ⟨⟨eph, heph, comp, hcomp, signature, hsig, record, hrecord, shared, hshared, plaintext, hplain, nonce, -,
    encoded, hencoded, encrypted, hencrypted, rfl⟩, -⟩ := makeHandshake_eq_ok_iff.mp hmake
  -- the key pair that was drawn is the one of the exchange, its compressed key that of `E`
  obtain rfl : eph = x.ephemeral := Except.ok.inj (heph.symm.trans x.ephemeral_drawn)
  obtain ⟨E', hE', hpub⟩ := Rlpx.Ecdh.pubkey_of_generateEphemeralKeypair heph
  obtain rfl : E' = E := Option.some.inj (hE'.symm.trans hE)
  obtain ⟨-, E'', hE'', rfl⟩ := compressPublicKey_eq_ok_iff.mp hcomp
  rw [hpub] at hE''
  obtain rfl : E' = E'' := Option.some.inj ((parseNodeId_of_readBack hread).symm.trans hE'')
  obtain ⟨henr, -⟩ := enrForChallenge_eq_ok_iff.mp hrecord
  rw [hseq, if_pos (by decide)] at henr
  obtain ⟨port, hbound, henr⟩ := henr
  obtain rfl : kMsgFindNode :: findnodeBytes (findnodeReqId peer) = plaintext := by
    rw [hreq, makeFindnodePlaintext_run (length_findnodeReqId peer)] at hplain
    exact Except.ok.inj hplain
  have hcounting (f : Counters → Counters) : (counting f x.aChallenged').config = x.a.config := hconfig
  rw [hcounting, hdata, h.node] at hsig
  rw [hpeer, h.node] at hshared
  rw [hcounting] at henr
  rw [hcounting, h.node] at hencoded
  have hsent := x.handshake_sent
  rw [hafter] at hsent ⊢
  have hkeys : deriveSessionKeys env shared pending.challengeData
      (deriveNodeAddress env x.a.config.publicKey) (deriveNodeAddress env x.b.config.publicKey) = x.keys shared := by
    rw [hdata]
    rfl
  rw [hcounting, h.node, hkeys] at hencrypted
  refine ⟨port, record, signature, shared, nonce, encoded, encrypted, hport.symm.trans hbound, henr, hsig, hshared,
    hencoded, hencrypted, (packet_of_sent hsent).symm, ?_⟩
  rw [← h.key]
  refine (Finmap.lookup_insert _).trans ?_
  rw [hcounting, h.node, hkeys, hpeer, h.node, hreq]

end Exchange

/-! ## The exchange takes place -/

structure Draws where
  openNonce : GcmNonce
  randomMsg : FixedBytes kRandomMessageCiphertextBytes
  openIv : MaskingIv
  idNonce : FixedBytes kWhoareyouIdNonceBytes
  challengeIv : MaskingIv
  keyDraws : List (Option Rlpx.PrivateKey)
  answerNonce : GcmNonce
  answerIv : MaskingIv

namespace Draws

variable (d : Draws)

def openInput : TaskInput := ⟨[], some d.openNonce, some d.randomMsg, none, some d.openIv, true⟩

def challengeInput : TaskInput := ⟨[], none, none, some d.idNonce, some d.challengeIv, true⟩

def answerInput : TaskInput := ⟨d.keyDraws, some d.answerNonce, none, none, some d.answerIv, true⟩

def challengeData : Bytes :=
  d.challengeIv.bytes ++ (staticHeader kFlagWhoareyou d.openNonce
    (UInt16.ofNat (d.idNonce.bytes ++ appendU64be 0).length) ++ (d.idNonce.bytes ++ appendU64be 0))

end Draws

theorem encodePacket_succeeds {env : ClientPrimitives} (hctx : env.cipherContext = true) (iv : MaskingIv) (flag : UInt8)
    (nonce : GcmNonce) (authData msgData : Bytes) (destination : NodeAddress) :
    ∃ encoded, encodePacket env (some iv) flag nonce authData msgData destination = .ok encoded ∧
      encoded.headerData =
        iv.bytes ++ (staticHeader flag nonce (UInt16.ofNat authData.length) ++ authData) :=
  ⟨_, encodePacket_eq_ok_iff.mpr ⟨hctx, iv, rfl, rfl⟩, rfl⟩

section

variable {env : ClientPrimitives} {peer : ValidatedPeer} {endpoint : Endpoint} {c : Discv5Client}

/-- Where the packets for a peer go, and under which key the peer is filed. -/
structure Reaches (env : ClientPrimitives) (peer : ValidatedPeer) (endpoint : Endpoint) : Prop where
  ip : peer.ip = env.addressToString endpoint.address
  port : peer.udpPort = endpoint.port
  address : env.makeAddress peer.ip = some endpoint.address

theorem Reaches.key (h : Reaches env peer endpoint) :
    endpointKeyOf peer.ip peer.udpPort = endpointKey env endpoint :=
  endpointKeyOf_eq h.ip h.port

theorem Reaches.destination (h : Reaches env peer endpoint) :
    (⟨endpoint.address, peer.udpPort⟩ : Endpoint) = endpoint := by
  rw [h.port]

theorem sendFindnode_opens (d : Draws) (hreach : Reaches env peer endpoint)
    (hfresh : Fresh (endpointKey env endpoint) c)
    {opening : EncodedPacket} (hopening : encodePacket env (some d.openIv) kFlagMessage d.openNonce
      (makeMessageAuthData (deriveNodeAddress env c.config.publicKey)) d.randomMsg.bytes
      (deriveNodeAddress env peer.nodeId) = .ok opening) :
    sendFindnode env d.openInput peer c = .ok () { c with
      pendingRequests := c.pendingRequests.insert (endpointKey env endpoint) (Exchange.openRequest peer d.openNonce)
      sent := c.sent ++ [(endpoint, opening.packet)] } := by
  unfold sendFindnode
  rw [hreach.key, hfresh.session, hfresh.pending]
  refine sendOpening_eq_ok_iff.mpr
    ⟨rfl, d.openNonce, rfl, d.randomMsg, rfl, opening, hopening, _, hreach.address, ?_⟩
  rw [hreach.key, hreach.destination]
  rfl

/-- What a client needs for its handshake with the node `nodeId`: the key drawn, the identity proof, the client's own
record and the shared secret. -/
structure CanAnswer (env : ClientPrimitives) (d : Draws) (c : Discv5Client) (nodeId : NodeId)
    (eph : Rlpx.Ecdh.KeyPair) : Prop where
  cipher : env.cipherContext = true
  drawn : Rlpx.Ecdh.generateEphemeralKeypair env.toRlpxPrimitives d.keyDraws = .ok eph
  idProof : ∃ ephCompressed, compressPublicKey env eph.publicKey = .ok ephCompressed ∧
    ∃ signature, makeIdSignature env c.config.privateKey d.challengeData ephCompressed.bytes
      (deriveNodeAddress env nodeId) = .ok signature
  record : ∃ port, c.boundPort = some port ∧ ∃ raw, makeLocalEnrRecord env c.config port = .ok raw
  secret : ∃ shared, sharedSecretFromUncompressedPubkey env nodeId eph.privateKey = .ok shared

theorem CanAnswer.transfer {d : Draws} {nodeId : NodeId} {eph : Rlpx.Ecdh.KeyPair} {c' : Discv5Client}
    (h : CanAnswer env d c nodeId eph) (hconfig : c'.config = c.config) (hport : c'.boundPort = c.boundPort) :
    CanAnswer env d c' nodeId eph := by
  refine ⟨h.cipher, h.drawn, ?_, ?_, h.secret⟩
  · rw [hconfig]
    exact h.idProof
  · rw [hconfig, hport]
    exact h.record

theorem makeHandshake_succeeds {d : Draws} {eph : Rlpx.Ecdh.KeyPair} (h : CanAnswer env d c peer.nodeId eph)
    {pending : PendingRequest} (hpeer : pending.peer = peer) (hreq : pending.reqId = findnodeReqId peer)
    (hdata : pending.challengeData = d.challengeData) (hseq : pending.recordSeq = 0) :
    ∃ handshake, makeHandshake env d.answerInput peer pending c = .ok handshake c := by
  obtain ⟨ephCompressed, hcomp, signature, hsig⟩ := h.idProof
  obtain ⟨port, hbound, raw, hraw⟩ := h.record
  obtain ⟨shared, hshared⟩ := h.secret
  obtain ⟨encoded, hencoded, -⟩ := encodePacket_succeeds h.cipher d.answerIv kFlagHandshake d.answerNonce
    (makeHandshakeAuthData (deriveNodeAddress env c.config.publicKey) signature.bytes ephCompressed.bytes raw) []
    (deriveNodeAddress env peer.nodeId)
  have hrecord : enrForChallenge env pending.recordSeq c = .ok raw c := by
    rw [hseq]
    exact enrForChallenge_eq_ok_iff.mpr ⟨⟨port, hbound, hraw⟩, rfl⟩
  have hplain := makeFindnodePlaintext_run (length_findnodeReqId peer)
  rw [← hreq] at hplain
  rw [← hdata] at hsig
  rw [← hpeer] at hshared
  have hencrypt (key : SessionKey) (plaintext : Bytes) :
      encryptGcm env key d.answerNonce plaintext encoded.headerData =
        .ok ((env.gcmEncrypt key d.answerNonce plaintext encoded.headerData).1 ++
          (env.gcmEncrypt key d.answerNonce plaintext encoded.headerData).2.bytes) := by
    unfold encryptGcm
    rw [Outcome.rejectIf_bind_of_not (by simp [h.cipher])]
    rfl
  exact ⟨_, makeHandshake_eq_ok_iff.mpr ⟨⟨eph, h.drawn, ephCompressed, hcomp, signature, hsig, raw, hrecord, shared,
    hshared, _, hplain, d.answerNonce, rfl, encoded, hencoded, _, hencrypt _ _, rfl⟩, rfl⟩⟩

theorem sendFindnode_answers {d : Draws} {eph : Rlpx.Ecdh.KeyPair} (h : CanAnswer env d c peer.nodeId eph)
    (hreach : Reaches env peer endpoint) {pending : PendingRequest}
    (hsession : c.sessions.lookup (endpointKey env endpoint) = none)
    (hpending : c.pendingRequests.lookup (endpointKey env endpoint) = some pending)
    (hhave : pending.haveChallenge = true) (hpeer : pending.peer = peer) (hreq : pending.reqId = findnodeReqId peer)
    (hdata : pending.challengeData = d.challengeData) (hseq : pending.recordSeq = 0) :
    ∃ packet c', sendFindnode env d.answerInput peer c = .ok () c' ∧ c'.sent = c.sent ++ [(endpoint, packet)] := by
  have hcount (f : Counters → Counters) : CanAnswer env d (counting f c) peer.nodeId eph :=
    ⟨h.cipher, h.drawn, h.idProof, h.record, h.secret⟩
  obtain ⟨handshake, hmake⟩ := makeHandshake_succeeds (hcount _) hpeer hreq hdata hseq
  obtain ⟨c', hrun, hsent⟩ : ∃ c', sendHandshake env d.answerInput peer pending c = .ok () c' ∧
      c'.sent = c.sent ++ [(⟨endpoint.address, peer.udpPort⟩, handshake.packet)] :=
    ⟨_, sendHandshake_eq_ok_iff.mpr ⟨rfl, handshake, hmake, endpoint.address, hreach.address, rfl⟩, rfl⟩
  rw [hreach.destination] at hsent
  refine ⟨handshake.packet, c', ?_, hsent⟩
  unfold sendFindnode
  rw [hreach.key, hsession, hpending]
  simp only [hhave, if_true]
  exact hrun

end

open Exchange in
/-- **The exchange takes place** when the draws succeed, the socket takes the packets, and the opener can make its
handshake. -/
theorem exists_exchange {env : ClientPrimitives} {peer : ValidatedPeer} {endpointA endpointB : Endpoint}
    {a b : Discv5Client} (d : Draws) {eph : Rlpx.Ecdh.KeyPair} (hreach : Reaches env peer endpointB)
    (hnode : peer.nodeId = b.config.publicKey) (hfreshA : Fresh (endpointKey env endpointB) a)
    (hfreshB : Fresh (endpointKey env endpointA) b) (h : CanAnswer env d a b.config.publicKey eph) :
    ∃ x : Exchange env peer endpointA endpointB, x.a = a ∧ x.b = b ∧ x.ephemeral = eph ∧
      x.challenge.challengeData = d.challengeData := by
  -- the opening
  obtain ⟨opening, hopening, -⟩ := encodePacket_succeeds h.cipher d.openIv kFlagMessage d.openNonce
    (makeMessageAuthData (deriveNodeAddress env a.config.publicKey)) d.randomMsg.bytes
    (deriveNodeAddress env peer.nodeId)
  have hopens := sendFindnode_opens d hreach hfreshA hopening
  obtain ⟨view, hview, hflag, hsize, hauth, hnonce⟩ := message_view hopening
  rw [hnode] at hview
  have hhandled := @handlePacket_message _ _ _ endpointA _ hview hflag hsize hfreshB.session
  rw [hauth, FixedBytes.load_bytes, hnonce] at hhandled
  -- the challenge
  obtain ⟨whoareyou, hwhoareyou, hheader⟩ := encodePacket_succeeds h.cipher d.challengeIv kFlagWhoareyou d.openNonce
    (d.idNonce.bytes ++ appendU64be 0) [] (deriveNodeAddress env a.config.publicKey)
  obtain ⟨view', hview', hflag', hsize', hnonce', hseq, hheader'⟩ := whoareyou_view hwhoareyou
  have hchallenges (c : Discv5Client) : sendWhoareyou env d.challengeInput endpointA
      (deriveNodeAddress env a.config.publicKey) d.openNonce c = .ok () _ :=
    sendWhoareyou_eq_ok_iff.mpr ⟨rfl, d.idNonce, rfl, whoareyou, hwhoareyou, rfl⟩
  obtain ⟨aOpened, haOpened⟩ : ∃ c, c = { a with
      pendingRequests := a.pendingRequests.insert (endpointKey env endpointB) (openRequest peer d.openNonce)
      sent := a.sent ++ [(endpointB, opening.packet)] } := ⟨_, rfl⟩
  have hlookup : aOpened.pendingRequests.lookup (endpointKey env endpointB) = some (openRequest peer d.openNonce) := by
    rw [haOpened]
    exact Finmap.lookup_insert _
  rw [← haOpened] at hopens
  obtain ⟨aChallenged, hreturned, hpending, hsession, hconfig, hport, htasks⟩ : ∃ c,
      handlePacket env whoareyou.packet endpointB aOpened = some c ∧
      c.pendingRequests.lookup (endpointKey env endpointB) = some { openRequest peer d.openNonce with
        idNonce := .load _ view'.authData
        recordSeq := readU64be (view'.authData.drop kWhoareyouIdNonceBytes)
        challengeData := view'.headerData
        haveChallenge := true } ∧
      c.sessions = a.sessions ∧ c.config = a.config ∧ c.boundPort = a.boundPort ∧
      c.tasks = aOpened.tasks ++ [.retry peer] := by
    refine ⟨_, handlePacket_whoareyou ?_ hflag' hsize' hlookup hnonce'.symm, Finmap.lookup_insert _, ?_⟩
    · rw [haOpened]
      exact hview'
    · rw [haOpened]
      exact ⟨rfl, rfl, rfl, rfl⟩
  -- the answer
  have hanswer : CanAnswer env d aChallenged peer.nodeId eph := by
    rw [hnode]
    exact h.transfer hconfig hport
  obtain ⟨handshake, aAnswered, hanswers, hsent⟩ := sendFindnode_answers hanswer hreach
    (hsession ▸ hfreshA.session) hpending rfl rfl rfl (hheader'.trans hheader) hseq
  exact ⟨{
    openInput := d.openInput
    challengeInput := d.challengeInput
    answerInput := d.answerInput
    opening := opening.packet
    whoareyou := whoareyou.packet
    handshake := handshake
    a := a
    aOpened := aOpened
    aOpened' := aOpened
    aChallenged := aChallenged
    aChallenged' := aChallenged
    aAnswered := aAnswered
    b := b
    bOpened := _
    bOpened' := _
    bChallenged := _
    bChallenged' := _
    remoteNodeAddr := deriveNodeAddress env a.config.publicKey
    requestNonce := d.openNonce
    retried := peer
    challenge := _
    ephemeral := eph
    opens := hopens
    opening_sent := by rw [haOpened]
    opening_handled := hhandled
    challenge_spawned := rfl
    b_waits := .refl _ _
    challenges := hchallenges _
    whoareyou_sent := rfl
    challenge_kept := Finmap.lookup_insert _
    a_waits := .refl _ _
    whoareyou_handled := hreturned
    retry_spawned := htasks
    a_waits' := .refl _ _
    ephemeral_drawn := h.drawn
    answers := hanswers
    handshake_sent := hsent
    b_waits' := .refl _ _ }, rfl, rfl, rfl, hheader⟩

end DevP2P.Discv5
