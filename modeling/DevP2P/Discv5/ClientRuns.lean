import DevP2P.Discv5.ClientSteps
import DevP2P.Lib.Runs

/-!
# Runs of the client

Packets come in, requests are spawned, and the tasks that wait are run one by one, in any order and with any random
bytes.

* `ClientAction`, `Discv5Client.call` : one step; a client whose record parser has read outside an object is gone;
* `ClientEvent`, `sendEvents`, `packetEvents` : what the steps do with sessions, requests and NODES messages;
* `sendFindnode_cases`, `handlePacket_cases` : a step changes the sessions and the peer table as its events say, and not
  otherwise.
-/

namespace DevP2P.Discv5
open DevP2P.Lib DevP2P.Rlp Stateful

/-! ## Actions and events -/

inductive ClientAction
  | receive (data : Bytes) (sender : Endpoint)
  /-- A call of `send_findnode` is spawned, as the crawler loop does it. -/
  | spawnQuery (peer : ValidatedPeer)
  /-- The waiting task at the index is run. -/
  | runTask (index : Nat) (input : TaskInput)

inductive ClientEvent
  /-- A handshake has written a new session to `sessions_[key]`. -/
  | started (key : Bytes)
  /-- `send_findnode` has kept the id in the session under `key` and has passed the request to the socket, which has
  taken it or not. -/
  | requested (key reqId : Bytes) (taken : Bool)
  /-- `ingest_discovered_peers` has been called with the peers of a NODES message that came on the session under
  `key`. -/
  | ingested (key reqId : Bytes) (peers : List ValidatedPeer)
deriving DecidableEq

def Discv5Client.new (config : Discv5Config) (boundPort : Option UInt16) (crawler : Crawler) : Discv5Client where
  config := config
  boundPort := boundPort
  sessions := ∅
  pendingRequests := ∅
  sentChallenges := ∅
  crawler := crawler
  counters := {}
  tasks := []
  sent := []

variable (env : ClientPrimitives)

def findnodePacket (input : TaskInput) (peer : ValidatedPeer) (config : Discv5Config) (session : SessionState) :
    Except Discv5Error Bytes := do
  let plaintext ← makeFindnodePlaintext (findnodeReqId peer)
  sessionPacket env input (deriveNodeAddress env config.publicKey) (deriveNodeAddress env peer.nodeId)
    session.writeKey plaintext

/-- What a call of `send_findnode` does. -/
def sendEvents (input : TaskInput) (peer : ValidatedPeer) (c : Discv5Client) : List ClientEvent :=
  match c.sessions.lookup (endpointKeyOf peer.ip peer.udpPort) with
  | some session => match findnodePacket env input peer c.config session with
    | .ok _ => [.requested (endpointKeyOf peer.ip peer.udpPort) (findnodeReqId peer)
        (Stateful.succeeds (sendFindnode env input peer c))]
    | .error _ => []
  | none => match c.pendingRequests.lookup (endpointKeyOf peer.ip peer.udpPort) with
    | some pending =>
      if pending.haveChallenge then match makeHandshake env input peer pending c with
        | .ok _ _ => [.started (endpointKeyOf peer.ip peer.udpPort), .requested (endpointKeyOf peer.ip peer.udpPort)
            pending.reqId (Stateful.succeeds (sendFindnode env input peer c))]
        | .error _ _ => []
      else []
    | none => []

def taskEvents (input : TaskInput) (c : Discv5Client) : Task → List ClientEvent
  | .query peer => sendEvents env input peer c
  | .retry peer => sendEvents env input peer c
  | .sendWhoareyou _ _ _ => []
  | .handleFindnodeRequest _ _ => []

/-- The NODES message that the packet carries, and the session it comes on, if its peers are ingested. -/
def ingestedNodes (packet : PacketView) (key : Bytes) (c : Discv5Client) : Option (SessionState × NodesMessage) :=
  if packet.authSize.toNat = kMessageAuthDataBytes then
    match sessionWith c key (.load _ packet.authData) with
    | none => none
    | some session => match decryptGcm env session.readKey packet.nonce packet.msgData packet.headerData with
      | .error _ => none
      | .ok [] => none
      | .ok (msgType :: body) =>
        if msgType = kMsgNodes then
          match parseNodesMessage env.toEnrPrimitives body with
          | .error _ => none
          | .ok nodes =>
            if session.lastReqId = [] ∨ nodes.reqId = session.lastReqId then some (session, nodes) else none
        else none
  else none

def packetEvents (data : Bytes) (sender : Endpoint) (c : Discv5Client) : List ClientEvent :=
  match decodePacket env data (deriveNodeAddress env c.config.publicKey) with
  | .error _ => []
  | .ok packet =>
    if packet.flag = kFlagMessage then
      match ingestedNodes env packet (endpointKey env sender) c with
      | some (_, nodes) => [.ingested (endpointKey env sender) nodes.reqId nodes.peers]
      | none => []
    else if packet.flag = kFlagHandshake then
      match acceptHandshake env packet (endpointKey env sender) c with
      | .ok _ _ => [.started (endpointKey env sender)]
      | .error _ _ => []
    else []

namespace Discv5Client

def step (c : Discv5Client) : ClientAction → Option Discv5Client
  | .receive data sender => handlePacket env data sender c
  | .spawnQuery peer => some { c with tasks := c.tasks ++ [.query peer] }
  | .runTask index input => match c.tasks[index]? with
    | none => some c
    | some task => some (Discv5.runTask env input task { c with tasks := c.tasks.eraseIdx index })

def events (c : Discv5Client) : ClientAction → List ClientEvent
  | .receive data sender => packetEvents env data sender c
  | .spawnQuery _ => []
  | .runTask index input => match c.tasks[index]? with
    | none => []
    | some task => taskEvents env input { c with tasks := c.tasks.eraseIdx index } task

def call : Option Discv5Client → ClientAction → Option Discv5Client × List ClientEvent
  | none, _ => (none, [])
  | some c, a => match c.step env a with
    | none => (none, [])
    | some c' => (some c', c.events env a)

def after (c : Discv5Client) (actions : List ClientAction) : Option Discv5Client :=
  (runEffects (call env) (some c) actions).1

def trace (c : Discv5Client) (actions : List ClientAction) : List ClientEvent :=
  (runEffects (call env) (some c) actions).2

variable {env}

theorem after_concat {c : Discv5Client} {actions : List ClientAction} {a : ClientAction} :
    c.after env (actions ++ [a]) = (c.after env actions).bind fun d => d.step env a := by
  unfold after
  rw [runEffects_append, runEffects_singleton]
  cases (runEffects (call env) (some c) actions).1 with
  | none => rfl
  | some d =>
      simp only [call, Option.bind_some]
      cases d.step env a <;> rfl

theorem trace_concat_eq (env : ClientPrimitives) (c : Discv5Client) (actions : List ClientAction) (a : ClientAction) :
    c.trace env (actions ++ [a]) = c.trace env actions ++ (call env (c.after env actions) a).2 := by
  unfold trace
  rw [runEffects_append, runEffects_singleton]
  rfl

theorem trace_concat_of_step {c d d' : Discv5Client} {actions : List ClientAction} {a : ClientAction}
    (hafter : c.after env actions = some d) (hstep : d.step env a = some d') :
    c.trace env (actions ++ [a]) = c.trace env actions ++ d.events env a := by
  rw [trace_concat_eq, hafter]
  simp only [call, hstep]

theorem trace_concat (env : ClientPrimitives) (c : Discv5Client) (actions : List ClientAction) (a : ClientAction) :
    c.trace env (actions ++ [a]) = c.trace env actions ∨
    ∃ d d', c.after env actions = some d ∧ d.step env a = some d' := by
  rw [trace_concat_eq]
  cases c.after env actions with
  | none => exact .inl (List.append_nil _)
  | some d =>
      cases hstep : d.step env a with
      | none => simp only [call, hstep, List.append_nil, true_or]
      | some d' => exact .inr ⟨d, d', rfl, hstep⟩

end Discv5Client

/-! ## What a step leaves alone -/

/-- The requests that are pending have ids. -/
def HaveIds (c : Discv5Client) : Prop := ∀ key pending, c.pendingRequests.lookup key = some pending → pending.reqId ≠ []

/-- From `c` to `d` the sessions have become `sessions`. -/
structure SessionFrame (c : Discv5Client) (sessions : Table SessionState) (d : Discv5Client) : Prop where
  config : d.config = c.config
  sessions : d.sessions = sessions
  haveIds : HaveIds c → HaveIds d

/-- The same, and the peer table is as before. -/
structure Frame (c : Discv5Client) (sessions : Table SessionState) (d : Discv5Client) : Prop
    extends SessionFrame c sessions d where
  crawler : d.crawler = c.crawler

theorem findnodeReqId_ne_nil (peer : ValidatedPeer) : findnodeReqId peer ≠ [] := by
  simp [findnodeReqId, appendU16be, beStore]

theorem HaveIds.insert {c : Discv5Client} (h : HaveIds c) {key : Bytes} {pending : PendingRequest}
    (hid : pending.reqId ≠ []) :
    HaveIds { c with pendingRequests := c.pendingRequests.insert key pending } := by
  intro key' pending' hlookup
  by_cases hk : key' = key
  · subst hk
    rw [Finmap.lookup_insert] at hlookup
    rwa [← Option.some.inj hlookup]
  · rw [Finmap.lookup_insert_of_ne _ hk] at hlookup
    exact h key' pending' hlookup

theorem HaveIds.erase {c : Discv5Client} (h : HaveIds c) (key : Bytes) :
    HaveIds { c with pendingRequests := c.pendingRequests.erase key } := by
  intro key' pending' hlookup
  by_cases hk : key' = key
  · subst hk
    rw [Finmap.lookup_erase] at hlookup
    cases hlookup
  · rw [Finmap.lookup_erase_ne hk] at hlookup
    exact h key' pending' hlookup

namespace Frame

variable {c d : Discv5Client} {t : Table SessionState}

theorem refl (c : Discv5Client) : Frame c c.sessions c := ⟨⟨rfl, rfl, id⟩, rfl⟩

theorem counting (h : Frame c t d) (f : Counters → Counters) : Frame c t (counting f d) :=
  ⟨⟨h.config, h.sessions, h.haveIds⟩, h.crawler⟩

theorem sent (h : Frame c t d) (s : List (Endpoint × Bytes)) : Frame c t { d with sent := s } :=
  ⟨⟨h.config, h.sessions, h.haveIds⟩, h.crawler⟩

theorem tasks (h : Frame c t d) (ts : List Task) : Frame c t { d with tasks := ts } :=
  ⟨⟨h.config, h.sessions, h.haveIds⟩, h.crawler⟩

theorem pending (h : Frame c t d) {key : Bytes} {pending : PendingRequest} (hid : HaveIds c → pending.reqId ≠ []) :
    Frame c t { d with pendingRequests := d.pendingRequests.insert key pending } :=
  ⟨⟨h.config, h.sessions, fun hc => (h.haveIds hc).insert (hid hc)⟩, h.crawler⟩

theorem forget (h : Frame c t d) (key : Bytes) : Frame c t { d with pendingRequests := d.pendingRequests.erase key } :=
  ⟨⟨h.config, h.sessions, fun hc => (h.haveIds hc).erase key⟩, h.crawler⟩

theorem put (h : Frame c t d) (t' : Table SessionState) : Frame c t' { d with sessions := t' } :=
  ⟨⟨h.config, rfl, h.haveIds⟩, h.crawler⟩

end Frame

/-! ## What `send_findnode` does -/

section Send

variable {env} {input : TaskInput} {peer : ValidatedPeer} {c : Discv5Client} {t : Table SessionState}

theorem maintains_sendPacket (packet : Bytes) : Stateful.Maintains (Frame c t) (sendPacket env input packet peer) := by
  unfold sendPacket socketSend
  exact .bind (.lift _) fun _ => .bind (.rejectIf _ _) fun _ => .modify fun d hd => hd.sent _

theorem maintains_sendOpening : Stateful.Maintains (Frame c t) (sendOpening env input peer) := by
  unfold sendOpening
  refine .bind .get fun _ => .bind (.lift _) fun nonce => .bind (.modify fun d hd => ?_) fun _ => ?_
  · exact hd.pending fun _ => findnodeReqId_ne_nil peer
  refine .bind (.lift _) fun _ => .bind ?_ fun _ => maintains_sendPacket _
  intro d hd
  unfold orForget
  split
  · exact hd
  · exact hd.forget _

theorem finalState_makeHandshake {pending : PendingRequest} :
    finalState (makeHandshake env input peer pending c) = c := by
  have henr : Stateful.Maintains (· = c) (enrForChallenge env pending.recordSeq) := by
    unfold enrForChallenge buildLocalEnr
    split_ifs
    · exact .bind .get fun _ => .bind (.lift _) fun _ => .lift _
    · exact .pure _
  have hall : Stateful.Maintains (· = c) (makeHandshake env input peer pending) := by
    unfold makeHandshake
    refine .bind .get fun _ => .bind (.lift _) fun _ => .bind (.lift _) fun _ => .bind (.lift _) fun _ => ?_
    refine .bind henr fun _ => ?_
    refine .bind (.lift _) fun _ => .bind (.lift _) fun _ => .bind (.lift _) fun _ => .bind (.lift _) fun _ => ?_
    exact .bind (.lift _) fun _ => .pure _
  exact hall c rfl

theorem lastReqId_makeHandshake {pending : PendingRequest} {handshake : Handshake}
    (h : makeHandshake env input peer pending c = .ok handshake c) : handshake.session.lastReqId = pending.reqId := by
  obtain ⟨⟨eph, -, compressed, -, signature, -, record, -, shared, -, plaintext, -, nonce, -, encoded, -,
    encrypted, -, rfl⟩, -⟩ :=
    makeHandshake_eq_ok_iff.mp h
  rfl

theorem makeHandshake_congr (c d : Discv5Client) {pending : PendingRequest} {handshake : Handshake}
    (hconfig : d.config = c.config) (hport : d.boundPort = c.boundPort) :
    makeHandshake env input peer pending d = .ok handshake d ↔
      makeHandshake env input peer pending c = .ok handshake c := by
  rw [makeHandshake_eq_ok_iff, makeHandshake_eq_ok_iff]
  simp only [enrForChallenge_eq_ok_iff, hconfig, hport]

theorem frame_countFailure {α : Type} {x : SendM α} {d : Discv5Client} (h : Frame c t (finalState (x d))) :
    Frame c t (finalState (countFailure x d)) := by
  unfold countFailure
  cases hx : x d with
  | ok a d' =>
      rw [hx] at h
      exact h
  | error e d' =>
      rw [hx] at h
      exact ⟨⟨h.config, h.sessions, h.haveIds⟩, h.crawler⟩

theorem frame_sendHandshake_of_ok {pending : PendingRequest} {handshake : Handshake}
    (h : makeHandshake env input peer pending c = .ok handshake c) :
    Frame c (c.sessions.insert (endpointKeyOf peer.ip peer.udpPort) handshake.session)
      (finalState (sendHandshake env input peer pending c)) := by
  unfold sendHandshake
  rw [bind_of_ok (count_apply _)]
  apply frame_countFailure
  rw [bind_of_ok ((makeHandshake_congr c (counting _ c) rfl rfl).mpr h), bind_of_ok (modify_apply _ _)]
  refine maintains_sendPacket _ _ ⟨⟨rfl, rfl, fun hc => ?_⟩, rfl⟩
  exact hc.erase _

theorem frame_sendHandshake_of_not_ok {pending : PendingRequest}
    (h : ∀ handshake, makeHandshake env input peer pending c ≠ .ok handshake c) :
    Frame c c.sessions (finalState (sendHandshake env input peer pending c)) := by
  unfold sendHandshake
  rw [bind_of_ok (count_apply _)]
  apply frame_countFailure
  have hfinal (f : Counters → Counters) :
      finalState (makeHandshake env input peer pending (counting f c)) = counting f c := finalState_makeHandshake
  cases hmake : makeHandshake env input peer pending
      (counting (fun n => { n with outboundHandshakeAttempts := n.outboundHandshakeAttempts + 1 }) c) with
  | ok handshake d =>
      have hd := hfinal fun n => { n with outboundHandshakeAttempts := n.outboundHandshakeAttempts + 1 }
      rw [hmake] at hd
      obtain rfl : d = _ := hd
      exact absurd ((makeHandshake_congr c (counting _ c) rfl rfl).mp hmake) (h handshake)
  | error e d =>
      have hd := hfinal fun n => { n with outboundHandshakeAttempts := n.outboundHandshakeAttempts + 1 }
      rw [hmake] at hd
      obtain rfl : d = _ := hd
      rw [bind_of_error hmake]
      exact ⟨⟨rfl, rfl, id⟩, rfl⟩

theorem sendOnSession_of_ok {session : SessionState} {packet : Bytes}
    (h : findnodePacket env input peer c.config session = .ok packet) :
    sendOnSession env input peer session c = sendPacket env input packet peer { c with
      sessions := c.sessions.insert (endpointKeyOf peer.ip peer.udpPort) { session with
        lastReqId := findnodeReqId peer } } := by
  obtain ⟨plaintext, hplain, hpacket⟩ := Outcome.bind_eq_ok.mp h
  unfold sendOnSession
  rw [get_bind, hplain, bind_of_ok (lift_ok _ _), hpacket, bind_of_ok (lift_ok _ _),
    bind_of_ok (modify_apply _ _)]

theorem sendOnSession_of_error {session : SessionState} {e : Discv5Error}
    (h : findnodePacket env input peer c.config session = .error e) :
    sendOnSession env input peer session c = .error e c := by
  unfold findnodePacket at h
  unfold sendOnSession
  rw [get_bind]
  cases hplain : makeFindnodePlaintext (findnodeReqId peer) with
  | error e' =>
      rw [hplain] at h
      cases h
      rfl
  | ok plaintext =>
      rw [hplain, Outcome.ok_bind] at h
      rw [bind_of_ok (lift_ok _ _), h]
      rfl

/-- **What a call of `send_findnode` does to the sessions**, however it ends: nothing, or it keeps the id of its request
in the session there is, or it starts a session with the handshake it has made. -/
theorem sendFindnode_cases :
    (sendEvents env input peer c = [] ∧ Frame c c.sessions (finalState (sendFindnode env input peer c))) ∨
    (∃ session, c.sessions.lookup (endpointKeyOf peer.ip peer.udpPort) = some session ∧
      sendEvents env input peer c = [.requested (endpointKeyOf peer.ip peer.udpPort) (findnodeReqId peer)
        (Stateful.succeeds (sendFindnode env input peer c))] ∧
      Frame c (c.sessions.insert (endpointKeyOf peer.ip peer.udpPort) { session with lastReqId := findnodeReqId peer })
        (finalState (sendFindnode env input peer c))) ∨
    ∃ pending handshake, c.sessions.lookup (endpointKeyOf peer.ip peer.udpPort) = none ∧
      c.pendingRequests.lookup (endpointKeyOf peer.ip peer.udpPort) = some pending ∧ pending.haveChallenge = true ∧
      makeHandshake env input peer pending c = .ok handshake c ∧
      sendEvents env input peer c = [.started (endpointKeyOf peer.ip peer.udpPort),
        .requested (endpointKeyOf peer.ip peer.udpPort) pending.reqId
        (Stateful.succeeds (sendFindnode env input peer c))] ∧
      Frame c (c.sessions.insert (endpointKeyOf peer.ip peer.udpPort) handshake.session)
        (finalState (sendFindnode env input peer c)) := by
  cases hsession : c.sessions.lookup (endpointKeyOf peer.ip peer.udpPort) with
  | some session =>
      have hsend : sendFindnode env input peer c = sendOnSession env input peer session c := by
        unfold sendFindnode
        rw [hsession]
      cases hpacket : findnodePacket env input peer c.config session with
      | error e =>
          refine .inl ⟨by simp only [sendEvents, hsession, hpacket], ?_⟩
          rw [hsend, sendOnSession_of_error hpacket]
          exact Frame.refl c
      | ok packet =>
          refine .inr (.inl ⟨session, rfl, by simp only [sendEvents, hsession, hpacket], ?_⟩)
          rw [hsend, sendOnSession_of_ok hpacket]
          exact maintains_sendPacket packet _ ((Frame.refl c).put _)
  | none =>
      cases hpending : c.pendingRequests.lookup (endpointKeyOf peer.ip peer.udpPort) with
      | none =>
          refine .inl ⟨by simp only [sendEvents, hsession, hpending], ?_⟩
          have hsend : sendFindnode env input peer c = sendOpening env input peer c := by
            unfold sendFindnode
            rw [hsession, hpending]
          rw [hsend]
          exact maintains_sendOpening _ (Frame.refl c)
      | some pending =>
          cases hchallenge : pending.haveChallenge with
          | false =>
              refine .inl ⟨by simp [sendEvents, hsession, hpending, hchallenge], ?_⟩
              have hsend : sendFindnode env input peer c
                  = sendOpening env input peer (forgetUnchallenged (endpointKeyOf peer.ip peer.udpPort) c) := by
                simp [sendFindnode, hsession, hpending, hchallenge]
              rw [hsend]
              exact maintains_sendOpening _ ((Frame.refl c).forget _)
          | true =>
              have hsend : sendFindnode env input peer c = sendHandshake env input peer pending c := by
                simp [sendFindnode, hsession, hpending, hchallenge]
              cases hmake : makeHandshake env input peer pending c with
              | error e d =>
                  refine .inl ⟨by simp [sendEvents, hsession, hpending, hchallenge, hmake], ?_⟩
                  rw [hsend]
                  exact frame_sendHandshake_of_not_ok (by simp [hmake])
              | ok handshake d =>
                  obtain rfl : d = c := (makeHandshake_eq_ok_iff.mp hmake).2
                  refine .inr (.inr ⟨pending, handshake, rfl, rfl, hchallenge, hmake, ?_, ?_⟩)
                  · simp [sendEvents, hsession, hpending, hchallenge, hmake]
                  · rw [hsend]
                    exact frame_sendHandshake_of_ok hmake

end Send

/-! ## What `handle_packet` does -/

section Packets

variable {env} {data : Bytes} {sender : Endpoint} {packet : PacketView} {key : Bytes} {c c' : Discv5Client}
    {t : Table SessionState}

theorem maintains_acceptOr {α : Type} (g : Counters → Counters) (x : Except EnrFault α) :
    Stateful.Maintains (Frame c t) (acceptOr (counting g) x) := by
  intro d hd
  rcases x with (e | _) | a
  · exact hd.counting g
  · exact hd
  · exact hd

theorem maintains_acceptOr_silently {α : Type} (x : Except EnrFault α) :
    Stateful.Maintains (Frame c t) (acceptOr silently x) := by
  intro d hd
  rcases x with (e | _) | a <;> exact hd

theorem maintains_require (g : Counters → Counters) (p : Prop) [Decidable p] :
    Stateful.Maintains (Frame c t) (require g p) := by
  intro d hd
  unfold require
  split_ifs
  · exact hd
  · exact hd.counting g

theorem maintains_spawn (task : Task) : Stateful.Maintains (Frame c t) (spawn task : HandleM Unit) :=
  fun _ hd => hd.tasks _

theorem frame_handleWhoareyou : Frame c c.sessions (finalState (handleWhoareyou packet key c)) := by
  unfold handleWhoareyou
  by_cases hsize : packet.authSize.toNat = kWhoareyouAuthDataBytes
  · rw [bind_of_ok (require_of hsize), get_bind]
    cases hpending : c.pendingRequests.lookup key with
    | none => exact Frame.refl c
    | some pending =>
        rw [bind_of_ok (acceptOr_of_ok (Outcome.unwrap_some _ _))]
        by_cases hnonce : pending.requestNonce = packet.nonce
        · rw [bind_of_ok (require_of hnonce), bind_of_ok (modify_apply _ _),
            bind_of_ok (count_apply _)]
          refine ⟨⟨rfl, rfl, fun hc => ?_⟩, rfl⟩
          exact hc.insert (hc key pending hpending)
        · rw [bind_of_error (require_of_not hnonce)]
          exact (Frame.refl c).counting id
  · rw [bind_of_error (require_of_not hsize)]
    exact (Frame.refl c).counting id

/-- The client with the peers of a NODES message on a session in its table. -/
def ingesting (session : SessionState) (nodes : NodesMessage) (c : Discv5Client) : Discv5Client :=
  { c with crawler := (c.crawler.markMeasured session.remoteNodeId).ingestDiscoveredPeers nodes.peers }

theorem lookup_of_sessionWith {remoteNodeAddr : NodeAddress} {session : SessionState}
    (h : sessionWith c key remoteNodeAddr = some session) :
    c.sessions.lookup key = some session ∧ session.remoteNodeAddr = remoteNodeAddr := by
  obtain ⟨hlookup, haddr⟩ := Option.filter_eq_some_iff.mp h
  exact ⟨hlookup, by simpa using haddr⟩

theorem handleMessage_cases (env : ClientPrimitives) (packet : PacketView) (key : Bytes) (sender : Endpoint)
    (c : Discv5Client) :
    (ingestedNodes env packet key c = none ∧
      Frame c c.sessions (finalState (handleMessage env packet key sender c))) ∨
    ∃ session nodes, ingestedNodes env packet key c = some (session, nodes) ∧ c.sessions.lookup key = some session ∧
      (session.lastReqId = [] ∨ nodes.reqId = session.lastReqId) ∧
      Frame (ingesting session nodes c) c.sessions (finalState (handleMessage env packet key sender c)) := by
  unfold handleMessage ingestedNodes
  rw [bind_of_ok (count_apply _)]
  by_cases hsize : packet.authSize.toNat = kMessageAuthDataBytes
  · rw [bind_of_ok (require_of hsize), get_bind, if_pos hsize]
    have hcount : sessionWith (counting (fun n => { n with inboundMessageSeen := n.inboundMessageSeen + 1 }) c) key
        (.load _ packet.authData) = sessionWith c key (.load _ packet.authData) := rfl
    rw [hcount]
    cases hsession : sessionWith c key (.load _ packet.authData) with
    | none => exact .inl ⟨rfl, ⟨⟨rfl, rfl, id⟩, rfl⟩⟩
    | some session =>
        simp only [handleSessionMessage]
        cases hdecrypt : decryptGcm env session.readKey packet.nonce packet.msgData packet.headerData with
        | error e => exact .inl ⟨rfl, ⟨⟨rfl, rfl, id⟩, rfl⟩⟩
        | ok plaintext =>
            rcases plaintext with _ | ⟨msgType, body⟩
            · exact .inl ⟨rfl, ⟨⟨rfl, rfl, id⟩, rfl⟩⟩
            · simp only [handlePlaintext]
              by_cases hnodes : msgType = kMsgNodes
              · rw [if_pos hnodes, if_pos hnodes]
                unfold handleNodes
                cases hparse : parseNodesMessage env.toEnrPrimitives body with
                | error e =>
                    refine .inl ⟨rfl, ?_⟩
                    rcases e with e | _ <;> exact ⟨⟨rfl, rfl, id⟩, rfl⟩
                | ok nodes =>
                    rw [bind_of_ok (acceptOr_of_ok rfl)]
                    simp only
                    by_cases hid : session.lastReqId = [] ∨ nodes.reqId = session.lastReqId
                    · rw [bind_of_ok (require_of hid), if_pos hid]
                      exact .inr ⟨session, nodes, rfl, (lookup_of_sessionWith hsession).1, hid, ⟨⟨rfl, rfl, id⟩, rfl⟩⟩
                    · rw [bind_of_error (require_of_not hid), if_neg hid]
                      exact .inl ⟨rfl, ⟨⟨rfl, rfl, id⟩, rfl⟩⟩
              · rw [if_neg hnodes, if_neg hnodes]
                refine .inl ⟨rfl, ?_⟩
                split_ifs
                · refine Stateful.Maintains.bind (maintains_acceptOr_silently _) (fun _ => maintains_spawn _) _ ?_
                  exact (Frame.refl c).counting _
                · exact ⟨⟨rfl, rfl, id⟩, rfl⟩
  · rw [bind_of_error (require_of_not hsize), if_neg hsize]
    exact .inl ⟨rfl, ⟨⟨rfl, rfl, id⟩, rfl⟩⟩

theorem maintains_acceptHandshake : Stateful.Maintains (Frame c t) (acceptHandshake env packet key) := by
  unfold acceptHandshake
  refine .bind (maintains_acceptOr _ _) fun _ => .bind .get fun _ => .bind (maintains_acceptOr _ _) fun _ => ?_
  refine .bind (maintains_require _ _) fun _ => .bind (maintains_require _ _) fun _ => ?_
  refine .bind (maintains_acceptOr _ _) fun _ => .bind (maintains_acceptOr _ _) fun _ => ?_
  refine .bind (maintains_require _ _) fun _ => .bind (maintains_require _ _) fun _ => ?_
  exact .bind (maintains_acceptOr _ _) fun _ => .pure _

theorem acceptHandshake_counting {session : SessionState} (f : Counters → Counters) :
    acceptHandshake env packet key (counting f c) = .ok session (counting f c) ↔
      acceptHandshake env packet key c = .ok session c := by
  rw [acceptHandshake_eq_ok_iff, acceptHandshake_eq_ok_iff]
  exact and_congr Iff.rfl ⟨fun _ => rfl, fun _ => rfl⟩

theorem frame_handleHandshake_of_not_ok (sender : Endpoint)
    (h : ∀ session, acceptHandshake env packet key c ≠ .ok session c) :
    Frame c c.sessions (finalState (handleHandshake env packet key sender c)) := by
  unfold handleHandshake
  rw [bind_of_ok (count_apply _)]
  have hframe : Frame c c.sessions (finalState (acceptHandshake env packet key
      (counting (fun n => { n with inboundHandshakeSeen := n.inboundHandshakeSeen + 1 }) c))) :=
    maintains_acceptHandshake _ ((Frame.refl c).counting _)
  cases haccept : acceptHandshake env packet key
      (counting (fun n => { n with inboundHandshakeSeen := n.inboundHandshakeSeen + 1 }) c) with
  | ok session d =>
      obtain rfl : d = _ := (acceptHandshake_eq_ok_iff.mp haccept).2
      exact absurd ((acceptHandshake_counting _).mp haccept) (h session)
  | error e d =>
      rw [haccept] at hframe
      rw [bind_of_error haccept]
      exact hframe

theorem frame_handleHandshake_of_ok {session : SessionState} (sender : Endpoint)
    (h : acceptHandshake env packet key c = .ok session c) :
    (∃ e, decryptGcm env session.readKey packet.nonce packet.msgData packet.headerData = .error e) ∧
      Frame c ((c.sessions.insert key session).erase key) (finalState (handleHandshake env packet key sender c)) ∨
    (∃ plaintext, decryptGcm env session.readKey packet.nonce packet.msgData packet.headerData = .ok plaintext) ∧
      ∃ reqId, Frame c (c.sessions.insert key { session with lastReqId := reqId })
        (finalState (handleHandshake env packet key sender c)) := by
  unfold handleHandshake
  rw [bind_of_ok (count_apply _), bind_of_ok ((acceptHandshake_counting _).mpr h),
    bind_of_ok (modify_apply _ _)]
  cases hdecrypt : decryptGcm env session.readKey packet.nonce packet.msgData packet.headerData with
  | error e => exact .inl ⟨⟨e, rfl⟩, ⟨⟨rfl, rfl, id⟩, rfl⟩⟩
  | ok plaintext =>
      refine .inr ⟨⟨plaintext, rfl⟩, ?_⟩
      rw [bind_of_ok (acceptOr_of_ok (Outcome.mapError_eq_ok.mpr rfl)), bind_of_ok (count_apply _),
        bind_of_ok (modify_apply _ _)]
      rcases plaintext with _ | ⟨msgType, body⟩
      · exact ⟨_, ⟨⟨rfl, rfl, id⟩, rfl⟩⟩
      · unfold handleFirstMessage
        simp only
        split_ifs
        · cases hparse : parseFindnodeReqId body with
          | error e => exact ⟨_, ⟨⟨rfl, rfl, id⟩, rfl⟩⟩
          | ok reqId =>
              rw [bind_of_ok (acceptOr_of_ok (Outcome.mapError_eq_ok.mpr rfl))]
              exact ⟨reqId, ⟨⟨rfl, Finmap.insert_insert _, id⟩, rfl⟩⟩
        · exact ⟨_, ⟨⟨rfl, rfl, id⟩, rfl⟩⟩

theorem finalState_of_handlePacket {data : Bytes} {sender : Endpoint} (h : handlePacket env data sender c = some c') :
    c' = finalState (handlePacketSteps env data sender c) := by
  unfold handlePacket at h
  cases hsteps : handlePacketSteps env data sender c with
  | ok u d =>
      rw [hsteps] at h
      exact (Option.some.inj h).symm
  | error e d =>
      rw [hsteps] at h
      rcases e with e | _
      · exact (Option.some.inj h).symm
      · cases h

/-- **What the handler does to the sessions and to the peer table.** -/
theorem handlePacket_cases (h : handlePacket env data sender c = some c') :
    (packetEvents env data sender c = [] ∧ Frame c c.sessions c') ∨
    (∃ session nodes, c.sessions.lookup (endpointKey env sender) = some session ∧
      (session.lastReqId = [] ∨ nodes.reqId = session.lastReqId) ∧
      packetEvents env data sender c = [.ingested (endpointKey env sender) nodes.reqId nodes.peers] ∧
      Frame (ingesting session nodes c) c.sessions c') ∨
    ∃ packet session, decodePacket env data (deriveNodeAddress env c.config.publicKey) = .ok packet ∧
      packet.flag = kFlagHandshake ∧ acceptHandshake env packet (endpointKey env sender) c = .ok session c ∧
      packetEvents env data sender c = [.started (endpointKey env sender)] ∧
      (Frame c ((c.sessions.insert (endpointKey env sender) session).erase (endpointKey env sender)) c' ∨
        ∃ reqId, Frame c (c.sessions.insert (endpointKey env sender) { session with lastReqId := reqId }) c') := by
  rw [finalState_of_handlePacket h]
  unfold handlePacketSteps packetEvents
  rw [get_bind]
  cases hdecode : decodePacket env data (deriveNodeAddress env c.config.publicKey) with
  | error e => exact .inl ⟨rfl, Frame.refl c⟩
  | ok packet =>
      rw [bind_of_ok (acceptOr_of_ok (Outcome.mapError_eq_ok.mpr rfl))]
      simp only
      by_cases hwho : packet.flag = kFlagWhoareyou
      · rw [if_pos hwho, if_neg (by rw [hwho]; decide), if_neg (by rw [hwho]; decide)]
        exact .inl ⟨rfl, frame_handleWhoareyou⟩
      rw [if_neg hwho]
      by_cases hmsg : packet.flag = kFlagMessage
      · rw [if_pos hmsg, if_pos hmsg]
        rcases handleMessage_cases env packet (endpointKey env sender) sender c with
          ⟨hnone, hframe⟩ | ⟨session, nodes, hsome, hlookup, hid, hframe⟩
        · rw [hnone]
          exact .inl ⟨rfl, hframe⟩
        · rw [hsome]
          exact .inr (.inl ⟨session, nodes, hlookup, hid, rfl, hframe⟩)
      rw [if_neg hmsg, if_neg hmsg]
      by_cases hhs : packet.flag = kFlagHandshake
      · rw [if_pos hhs, if_pos hhs]
        cases haccept : acceptHandshake env packet (endpointKey env sender) c with
        | error e d => exact .inl ⟨rfl, frame_handleHandshake_of_not_ok sender (by simp [haccept])⟩
        | ok session d =>
            obtain rfl : d = c := (acceptHandshake_eq_ok_iff.mp haccept).2
            refine .inr (.inr ⟨packet, session, rfl, hhs, haccept, rfl, ?_⟩)
            rcases frame_handleHandshake_of_ok sender haccept with ⟨-, hframe⟩ | ⟨-, hframe⟩
            · exact .inl hframe
            · exact .inr hframe
      · rw [if_neg hhs, if_neg hhs]
        exact .inl ⟨rfl, Frame.refl c⟩

end Packets

/-! ## Tasks and steps -/

section Steps

variable {env} {input : TaskInput} {c c' : Discv5Client} {a : ClientAction}

theorem frame_sendWhoareyou (sender : Endpoint) (remoteNodeAddr : NodeAddress) (requestNonce : GcmNonce) :
    Frame c c.sessions (finalState (sendWhoareyou env input sender remoteNodeAddr requestNonce c)) := by
  have hall : Stateful.Maintains (Frame c c.sessions) (sendWhoareyou env input sender remoteNodeAddr requestNonce) := by
    unfold sendWhoareyou socketSend
    refine .bind (.lift _) fun _ => .bind (.lift _) fun _ => .bind (.modify fun d hd => ?_) fun _ => ?_
    · exact ⟨⟨hd.config, hd.sessions, hd.haveIds⟩, hd.crawler⟩
    · exact .bind (.rejectIf _ _) fun _ => .modify fun d hd => hd.sent _
  exact hall c (Frame.refl c)

theorem frame_handleFindnodeRequest (reqId : Bytes) (sender : Endpoint) :
    Frame c c.sessions (finalState (handleFindnodeRequest env input reqId sender c)) := by
  have henr : Stateful.Maintains (Frame c c.sessions) (buildLocalEnr env) := by
    unfold buildLocalEnr
    exact .bind .get fun _ => .bind (.lift _) fun _ => .lift _
  have hall : Stateful.Maintains (Frame c c.sessions) (handleFindnodeRequest env input reqId sender) := by
    unfold handleFindnodeRequest
    refine .bind .get fun _ => .bind (.lift _) fun _ => .bind henr fun _ => .bind (.lift _) fun _ => ?_
    exact .bind (.lift _) fun _ => maintains_sendPacket _
  exact hall c (Frame.refl c)

/-- The task is a call of `send_findnode`. -/
def Task.Sends (peer : ValidatedPeer) (task : Task) : Prop := task = .query peer ∨ task = .retry peer

theorem Task.Sends.events {task : Task} {peer : ValidatedPeer} (h : task.Sends peer) :
    taskEvents env input c task = sendEvents env input peer c := by
  rcases h with rfl | rfl <;> rfl

theorem Task.Sends.frame {task : Task} {peer : ValidatedPeer} (h : task.Sends peer) {t : Table SessionState}
    (hframe : Frame c t (finalState (sendFindnode env input peer c))) :
    SessionFrame c t (Discv5.runTask env input task c) := by
  rcases h with rfl | rfl
  all_goals
    rw [Discv5.runTask]
    generalize sendFindnode env input peer c = result at hframe ⊢
    cases result <;> exact ⟨hframe.config, hframe.sessions, hframe.haveIds⟩

/-- **What a step does to the sessions.** -/
inductive SessionStep (env : ClientPrimitives) (c : Discv5Client) (a : ClientAction) (c' : Discv5Client) : Prop
  | quiet (hevents : c.events env a = []) (hframe : SessionFrame c c.sessions c')
  /-- A request goes out on a session. -/
  | request {key reqId : Bytes} {session : SessionState} {taken : Bool} (hlookup : c.sessions.lookup key = some session)
      (hid : reqId ≠ []) (hevents : c.events env a = [.requested key reqId taken])
      (hframe : SessionFrame c (c.sessions.insert key { session with lastReqId := reqId }) c')
  /-- A handshake goes out, with the pending request. -/
  | handshake {index : Nat} {input : TaskInput} {task : Task} {peer : ValidatedPeer} {pending : PendingRequest}
      {handshake : Handshake} {taken : Bool} (haction : a = .runTask index input) (htask : c.tasks[index]? = some task)
      (hsends : task.Sends peer) (hlookup : c.sessions.lookup (endpointKeyOf peer.ip peer.udpPort) = none)
      (hpending : c.pendingRequests.lookup (endpointKeyOf peer.ip peer.udpPort) = some pending)
      (hchallenge : pending.haveChallenge = true) (hmade : makeHandshake env input peer pending c = .ok handshake c)
      (hevents : c.events env a = [.started (endpointKeyOf peer.ip peer.udpPort),
        .requested (endpointKeyOf peer.ip peer.udpPort) pending.reqId taken])
      (hframe : SessionFrame c (c.sessions.insert (endpointKeyOf peer.ip peer.udpPort) handshake.session) c')
  /-- A NODES message comes in. -/
  | nodes {key : Bytes} {session : SessionState} {nodes : NodesMessage} (hlookup : c.sessions.lookup key = some session)
      (hid : session.lastReqId = [] ∨ nodes.reqId = session.lastReqId)
      (hevents : c.events env a = [.ingested key nodes.reqId nodes.peers]) (hframe : SessionFrame c c.sessions c')
  /-- A handshake comes in, with a message or with a request. -/
  | accepted {packet : PacketView} {key reqId : Bytes} {session : SessionState}
      (haccept : acceptHandshake env packet key c = .ok session c) (hevents : c.events env a = [.started key])
      (hframe : SessionFrame c (c.sessions.insert key { session with lastReqId := reqId }) c')
  /-- A handshake comes in, with a message that cannot be decrypted. -/
  | dropped {packet : PacketView} {key : Bytes} {session : SessionState}
      (haccept : acceptHandshake env packet key c = .ok session c) (hevents : c.events env a = [.started key])
      (hframe : SessionFrame c ((c.sessions.insert key session).erase key) c')

theorem sessionStep_of_receive {data : Bytes} {sender : Endpoint} (h : handlePacket env data sender c = some c') :
    SessionStep env c (.receive data sender) c' := by
  rcases handlePacket_cases h with ⟨hevents, hframe⟩ | ⟨session, nodes, hlookup, hid, hevents, hframe⟩ |
    ⟨packet, session, -, -, haccept, hevents, hframe | ⟨reqId, hframe⟩⟩
  · exact .quiet hevents hframe.toSessionFrame
  · exact .nodes hlookup hid hevents ⟨hframe.config, hframe.sessions, hframe.haveIds⟩
  · exact .dropped haccept hevents hframe.toSessionFrame
  · exact .accepted haccept hevents hframe.toSessionFrame

theorem SessionFrame.untasked {t : Table SessionState} {ts : List Task} (h : SessionFrame { c with tasks := ts } t c') :
    SessionFrame c t c' := ⟨h.config, h.sessions, h.haveIds⟩

theorem sessionStep_of_runTask {index : Nat} {task : Task} (htask : c.tasks[index]? = some task) :
    SessionStep env c (.runTask index input) (Discv5.runTask env input task { c with
      tasks := c.tasks.eraseIdx index }) := by
  have hevents : c.events env (.runTask index input)
      = taskEvents env input { c with tasks := c.tasks.eraseIdx index } task := by
    simp only [Discv5Client.events, htask]
  have hsend {peer : ValidatedPeer} (hsends : task.Sends peer) : SessionStep env c (.runTask index input)
      (Discv5.runTask env input task { c with tasks := c.tasks.eraseIdx index }) := by
    rw [hsends.events] at hevents
    rcases @sendFindnode_cases env input peer { c with tasks := c.tasks.eraseIdx index } with
      ⟨hnone, hframe⟩ | ⟨session, hlookup, hone, hframe⟩ | ⟨pending, handshake, hlookup, hpending, hchallenge,
        hmake, htwo, hframe⟩
    · exact .quiet (hevents.trans hnone) (hsends.frame hframe).untasked
    · exact .request hlookup (findnodeReqId_ne_nil _) (hevents.trans hone) (hsends.frame hframe).untasked
    · exact .handshake rfl htask hsends hlookup hpending hchallenge
        ((makeHandshake_congr c { c with tasks := c.tasks.eraseIdx index } rfl rfl).mp hmake)
        (hevents.trans htwo) (hsends.frame hframe).untasked
  cases task with
  | query peer => exact hsend (.inl rfl)
  | retry peer => exact hsend (.inr rfl)
  | sendWhoareyou sender remoteNodeAddr requestNonce =>
      have hframe : Frame _ _ (finalState (sendWhoareyou env input sender remoteNodeAddr requestNonce
        { c with tasks := c.tasks.eraseIdx index })) := frame_sendWhoareyou sender remoteNodeAddr requestNonce
      refine .quiet hevents ?_
      rw [Discv5.runTask]
      generalize sendWhoareyou env input sender remoteNodeAddr requestNonce _ = result at hframe ⊢
      cases result <;> exact hframe.toSessionFrame.untasked
  | handleFindnodeRequest reqId sender =>
      have hframe : Frame _ _ (finalState (handleFindnodeRequest env input reqId sender
        { c with tasks := c.tasks.eraseIdx index })) := frame_handleFindnodeRequest reqId sender
      refine .quiet hevents ?_
      rw [Discv5.runTask]
      generalize handleFindnodeRequest env input reqId sender _ = result at hframe ⊢
      cases result <;> exact hframe.toSessionFrame.untasked

theorem sessionStep_of_step (h : c.step env a = some c') : SessionStep env c a c' := by
  cases a with
  | receive data sender => exact sessionStep_of_receive h
  | spawnQuery peer =>
      obtain rfl := Option.some.inj h
      exact .quiet rfl ⟨rfl, rfl, id⟩
  | runTask index input =>
      cases htask : c.tasks[index]? with
      | none =>
          simp only [Discv5Client.step, htask, Option.some.injEq] at h
          subst h
          exact .quiet (by simp only [Discv5Client.events, htask]) ⟨rfl, rfl, id⟩
      | some task =>
          simp only [Discv5Client.step, htask, Option.some.injEq] at h
          subst h
          exact sessionStep_of_runTask htask

end Steps

end DevP2P.Discv5
