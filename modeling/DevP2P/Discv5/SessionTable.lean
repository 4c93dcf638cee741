import DevP2P.Discv5.ClientRuns

/-!
# The sessions of a client

A session is written by a handshake, one that was sent or one that was accepted.

* `BoundSession` : the address, the identity and the keys of a session belong to one node;
* `sessions_bound_iff` : the sessions of a run are bound as long as no call of `send_findnode` answers, for one peer,
  the challenge that another one has sent from the same endpoint;
* `rejected_handshake_keeps_sessions_iff` : a handshake that is refused leaves the sessions as they were unless it is
  refused last, for its message, while there is a session at its endpoint.
-/

namespace DevP2P.Discv5
open DevP2P.Lib DevP2P.Rlp

/-! ## Identities -/

/-- The write key and the read key of a session with the node `remote`. Its address stands in the key agreement, and its
key in the shared secret: the one it is known by when the session was opened here, and one that it has signed for this
client and this challenge when the session was opened there. -/
inductive KeysFor (env : ClientPrimitives) (config : Discv5Config) (remote : NodeId) : SessionKey → SessionKey → Prop
  | outbound {ephemeral : Rlpx.PrivateKey} {shared : FixedBytes kCompressedKeyBytes} {challengeData : Bytes}
      (hshared : sharedSecretFromUncompressedPubkey env remote ephemeral = .ok shared) :
      KeysFor env config remote
        (deriveSessionKeys env shared challengeData (deriveNodeAddress env config.publicKey)
          (deriveNodeAddress env remote)).writeKey
        (deriveSessionKeys env shared challengeData (deriveNodeAddress env config.publicKey)
          (deriveNodeAddress env remote)).readKey
  | inbound {pubkey signature challengeData : Bytes} {shared : FixedBytes kCompressedKeyBytes}
      (hsigned : verifyIdSignature env remote signature challengeData pubkey (deriveNodeAddress env config.publicKey) =
        true)
      (hshared : sharedSecretFromCompressedPubkey env pubkey config.privateKey = .ok shared) :
      KeysFor env config remote
        (deriveSessionKeys env shared challengeData (deriveNodeAddress env remote)
          (deriveNodeAddress env config.publicKey)).readKey
        (deriveSessionKeys env shared challengeData (deriveNodeAddress env remote)
          (deriveNodeAddress env config.publicKey)).writeKey

/-- The session is one with the node that it names. -/
structure BoundSession (env : ClientPrimitives) (config : Discv5Config) (session : SessionState) : Prop where
  address : session.remoteNodeAddr = deriveNodeAddress env session.remoteNodeId
  keys : KeysFor env config session.remoteNodeId session.writeKey session.readKey

def SessionsBound (env : ClientPrimitives) (c : Discv5Client) : Prop :=
  ∀ key session, c.sessions.lookup key = some session → BoundSession env c.config session

/-- A call of `send_findnode` for `peer` makes a handshake out of the challenge to a request for a node with another
address. -/
def MixesPeers (env : ClientPrimitives) (input : TaskInput) (peer : ValidatedPeer) (c : Discv5Client) : Prop :=
  c.sessions.lookup (endpointKeyOf peer.ip peer.udpPort) = none ∧
  ∃ pending handshake, c.pendingRequests.lookup (endpointKeyOf peer.ip peer.udpPort) = some pending ∧
    pending.haveChallenge = true ∧ makeHandshake env input peer pending c = .ok handshake c ∧
    deriveNodeAddress env peer.nodeId ≠ deriveNodeAddress env pending.peer.nodeId

def ClientAction.Mixes (env : ClientPrimitives) (c : Discv5Client) (a : ClientAction) : Prop :=
  ∃ index input task peer, a = .runTask index input ∧ c.tasks[index]? = some task ∧ task.Sends peer ∧
    MixesPeers env input peer c

section Identity

variable {env : ClientPrimitives} {c c' : Discv5Client} {a : ClientAction} {session : SessionState}

theorem BoundSession.withReqId {config : Discv5Config} (h : BoundSession env config session) (reqId : Bytes) :
    BoundSession env config { session with lastReqId := reqId } := ⟨h.address, h.keys⟩

theorem boundSession_of_acceptHandshake {packet : PacketView} {key : Bytes}
    (h : acceptHandshake env packet key c = .ok session c) : BoundSession env c.config session := by
  obtain ⟨⟨auth, -, challenge, -, -, -, record, -, verified, -, haddr, hsigned, shared, hshared, rfl⟩, -⟩ :=
    acceptHandshake_eq_ok_iff.mp h
  refine ⟨haddr.symm, ?_⟩
  rw [← haddr]
  exact .inbound hsigned hshared

theorem boundSession_makeHandshake_iff {input : TaskInput} {peer : ValidatedPeer} {pending : PendingRequest}
    {handshake : Handshake} (h : makeHandshake env input peer pending c = .ok handshake c) :
    BoundSession env c.config handshake.session ↔
      deriveNodeAddress env peer.nodeId = deriveNodeAddress env pending.peer.nodeId := by
  obtain ⟨⟨eph, -, compressed, -, signature, -, record, -, shared, hshared, plaintext, -, nonce, -, encoded,
    -, encrypted, -,
    rfl⟩, -⟩ := makeHandshake_eq_ok_iff.mp h
  constructor
  · intro hbound
    exact hbound.address
  · intro haddr
    refine ⟨haddr, ?_⟩
    rw [haddr]
    exact .outbound hshared

theorem SessionsBound.insert (h : SessionsBound env c) {key : Bytes} (hsession : BoundSession env c.config session)
    (hframe : SessionFrame c (c.sessions.insert key session) c') : SessionsBound env c' := by
  intro key' session' hlookup
  rw [hframe.sessions] at hlookup
  rw [hframe.config]
  by_cases hk : key' = key
  · subst hk
    rw [Finmap.lookup_insert] at hlookup
    rwa [← Option.some.inj hlookup]
  · rw [Finmap.lookup_insert_of_ne _ hk] at hlookup
    exact h key' session' hlookup

theorem SessionsBound.frame (h : SessionsBound env c) (hframe : SessionFrame c c.sessions c') :
    SessionsBound env c' := by
  intro key session hlookup
  rw [hframe.sessions] at hlookup
  rw [hframe.config]
  exact h key session hlookup

/-- **A step keeps the sessions bound** if it does not answer for one peer the challenge of another one. -/
theorem SessionsBound.step (h : SessionsBound env c) (hstep : c.step env a = some c') (hmix : ¬ a.Mixes env c) :
    SessionsBound env c' := by
  cases sessionStep_of_step hstep with
  | quiet hevents hframe => exact h.frame hframe
  | request hlookup hid hevents hframe => exact h.insert ((h _ _ hlookup).withReqId _) hframe
  | handshake haction htask hsends hlookup hpending hchallenge hmade hevents hframe =>
      refine h.insert ((boundSession_makeHandshake_iff hmade).mpr ?_) hframe
      by_contra hne
      exact hmix ⟨_, _, _, _, haction, htask, hsends, hlookup, _, _, hpending, hchallenge, hmade, hne⟩
  | nodes hlookup hid hevents hframe => exact h.frame hframe
  | accepted haccept hevents hframe => exact h.insert ((boundSession_of_acceptHandshake haccept).withReqId _) hframe
  | dropped haccept hevents hframe =>
      intro key session hlookup
      rw [hframe.sessions] at hlookup
      rw [hframe.config]
      rename_i key' _
      by_cases hk : key = key'
      · subst hk
        rw [Finmap.lookup_erase] at hlookup
        cases hlookup
      · rw [Finmap.lookup_erase_ne hk, Finmap.lookup_insert_of_ne _ hk] at hlookup
        exact h key session hlookup

theorem not_sessionsBound_of_mixes (hmix : a.Mixes env c) (hstep : c.step env a = some c') :
    ¬ SessionsBound env c' := by
  intro hbound
  obtain ⟨index, input, task, peer, rfl, htask, hsends, hlookup, pending, handshake, hpending, hchallenge,
    hmade, hne⟩ := hmix
  simp only [Discv5Client.step, htask, Option.some.injEq] at hstep
  have hsend : sendFindnode env input peer { c with tasks := c.tasks.eraseIdx index }
      = sendHandshake env input peer pending { c with tasks := c.tasks.eraseIdx index } := by
    simp only [sendFindnode, hlookup, hpending, hchallenge, if_true]
  have hframe := frame_sendHandshake_of_ok
    ((makeHandshake_congr c { c with tasks := c.tasks.eraseIdx index } rfl rfl).mpr hmade)
  rw [← hsend] at hframe
  replace hframe := (hsends.frame hframe).untasked
  rw [hstep] at hframe
  have hsession := hbound (endpointKeyOf peer.ip peer.udpPort) handshake.session
    (by rw [hframe.sessions, Finmap.lookup_insert])
  rw [hframe.config] at hsession
  exact hne ((boundSession_makeHandshake_iff hmade).mp hsession)

theorem sessionsBound_new (config : Discv5Config) (boundPort : Option UInt16) (crawler : Crawler) :
    SessionsBound env (.new config boundPort crawler) := by
  intro key session hlookup
  rw [Discv5Client.new, Finmap.lookup_empty] at hlookup
  cases hlookup

end Identity

/-- **The sessions of a run are bound to one identity each as long as no handshake mixes two peers.** -/
theorem sessions_bound_iff (env : ClientPrimitives) (config : Discv5Config) (boundPort : Option UInt16)
    (crawler : Crawler)
    (actions : List ClientAction) :
    (∀ pre, pre <+: actions → ∀ c, (Discv5Client.new config boundPort crawler).after env pre = some c →
      SessionsBound env c) ↔
    ∀ pre a, pre ++ [a] <+: actions → ∀ c, (Discv5Client.new config boundPort crawler).after env pre = some c →
      ¬ a.Mixes env c := by
  constructor
  · intro h pre a hpre c hafter hmix
    obtain ⟨c', hstep⟩ : ∃ c', c.step env a = some c' := by
      obtain ⟨index, input, task, peer, rfl, htask, -⟩ := hmix
      refine ⟨Discv5.runTask env input task { c with tasks := c.tasks.eraseIdx index }, ?_⟩
      simp only [Discv5Client.step, htask]
    refine not_sessionsBound_of_mixes hmix hstep (h _ hpre c' ?_)
    rw [Discv5Client.after_concat, hafter]
    exact hstep
  · intro h pre
    induction pre using List.reverseRecOn with
    | nil =>
        intro _ c hafter
        obtain rfl := Option.some.inj hafter
        exact sessionsBound_new config boundPort crawler
    | append_singleton pre a ih =>
        intro hpre c' hafter
        rw [Discv5Client.after_concat] at hafter
        obtain ⟨c, hc, hstep⟩ := Option.bind_eq_some_iff.mp hafter
        have hbound := ih ((List.prefix_append pre [a]).trans hpre) c hc
        exact hbound.step hstep (h pre a hpre c hc)

/-! ### A session with two peers

The curve, the hashes and the ciphers below are trivial ones: what happens does not depend on them. -/

def plainSecp : Secp256k1 where
  PubKey := Bytes
  Signature := FixedBytes 64
  RecoverableSignature := FixedBytes 64
  contextCreate := true
  seckeyVerify _ := true
  pubkeyCreate key := some (4 :: (key.bytes ++ key.bytes))
  pubkeyParse := some
  serializeUncompressed := FixedBytes.load 65
  serializeCompressed := FixedBytes.load 33
  pubkeyTweakMul P _ := some P
  signatureParseCompact := some
  ecdsaVerify _ _ _ := true
  signRecoverable _ _ := some (.zero _)
  recoverableSerializeCompact sig := (sig, recoveryId 0)

def plainEnv : ClientPrimitives where
  secp := plainSecp
  keccak256 := FixedBytes.load _
  sha256 := FixedBytes.load _
  hmacSha256 _ := FixedBytes.load _
  aes256Block _ block := block
  aes256Ctr _ _ := 0
  aes128Ctr _ _ _ := 0
  addressV4ToString a := a.bytes
  addressV6ToString a := a.bytes
  cipherContext := true
  gcmEncrypt _ _ plaintext _ := (plaintext, .zero _)
  gcmDecrypt _ _ ciphertext _ _ := some ciphertext
  makeAddress ip := some (.v4 (.load _ ip))
  addressToString
    | .v4 a => a.bytes
    | .v6 a _ => a.bytes

def plainClient : Discv5Client :=
  .new ⟨[10, 0, 0, 9], 30303, .load _ [9], .load _ (List.replicate 64 9), none⟩ (some 30303)
    ⟨none, [], ∅, ∅, ∅, 0, 0, 0, 0, []⟩

def plainPeer (x : UInt8) : ValidatedPeer := ⟨.load _ (List.replicate 64 x), [10, 0, 0, 1], 9000, 30303, none⟩

def plainEndpoint : Endpoint := ⟨.v4 (.load _ [10, 0, 0, 1]), 9000⟩

/-- Every draw succeeds and the socket takes the packet. -/
def plainInput : TaskInput := ⟨[some (.load _ [5])], some (.zero _), some (.zero _), some (.zero _),
    some (.zero _), true⟩

/-- A packet from `plainEndpoint`, unmasked; the nonce is the one of `plainInput`. -/
def plainPacket (flag : UInt8) (authData msgData : Bytes) : Bytes :=
  List.replicate 16 0 ++ staticHeader flag (.zero _) (UInt16.ofNat authData.length) ++ authData ++ msgData

/-- A request for the node 1 is challenged. Before the task that answers is run, a request for the node 2, at the same
endpoint, takes the challenge. -/
def mixedRun : List ClientAction :=
  [.spawnQuery (plainPeer 1), .runTask 0 plainInput,
    .receive (plainPacket kFlagWhoareyou (List.replicate 16 0 ++ appendU64be 1) []) plainEndpoint,
    .spawnQuery (plainPeer 2), .runTask 1 plainInput]

/-- **A session for one node with the address of another.** -/
theorem session_of_two_nodes : ∃ c session, plainClient.after plainEnv mixedRun = some c ∧
    c.sessions.lookup (endpointKey plainEnv plainEndpoint) = some session ∧
    session.remoteNodeId = (plainPeer 1).nodeId ∧
    session.remoteNodeAddr = deriveNodeAddress plainEnv (plainPeer 2).nodeId ∧
    session.remoteNodeAddr ≠ deriveNodeAddress plainEnv session.remoteNodeId := by
  have hrun : ((plainClient.after plainEnv mixedRun).bind fun c =>
    c.sessions.lookup (endpointKey plainEnv plainEndpoint)).map
      (fun session => (session.remoteNodeId, session.remoteNodeAddr))
        = some ((plainPeer 1).nodeId, deriveNodeAddress plainEnv (plainPeer 2).nodeId) := by decide +kernel
  obtain ⟨session, hsession, hids⟩ := Option.map_eq_some_iff.mp hrun
  obtain ⟨c, hc, hlookup⟩ := Option.bind_eq_some_iff.mp hsession
  obtain ⟨hid, haddr⟩ := Prod.mk.inj hids
  refine ⟨c, session, hc, hlookup, hid, haddr, ?_⟩
  rw [hid, haddr]
  decide

/-! ## Refused handshakes -/

/-- The handshake passes the checks up to the derivation of the keys. -/
def PassesChecks (env : ClientPrimitives) (packet : PacketView) (key : Bytes) (c : Discv5Client) : Prop :=
  ∃ session, acceptHandshake env packet key c = .ok session c

/-- The handshake passes every check, and its message is decrypted. -/
def AcceptsHandshake (env : ClientPrimitives) (packet : PacketView) (key : Bytes) (c : Discv5Client) : Prop :=
  ∃ session, acceptHandshake env packet key c = .ok session c ∧
    ∃ plaintext, decryptGcm env session.readKey packet.nonce packet.msgData packet.headerData = .ok plaintext

/-- The client handles a handshake packet and does not accept it. -/
structure RefusedHandshake (env : ClientPrimitives) (data : Bytes) (sender : Endpoint) (packet : PacketView)
    (c c' : Discv5Client) : Prop where
  decoded : decodePacket env data (deriveNodeAddress env c.config.publicKey) = .ok packet
  flag : packet.flag = kFlagHandshake
  refused : ¬ AcceptsHandshake env packet (endpointKey env sender) c
  handled : handlePacket env data sender c = some c'

theorem finalState_of_handshake {env : ClientPrimitives} {data : Bytes} {sender : Endpoint} {packet : PacketView}
    {c c' : Discv5Client} (h : RefusedHandshake env data sender packet c c') :
    c' = Stateful.finalState (handleHandshake env packet (endpointKey env sender) sender c) := by
  rw [finalState_of_handlePacket h.handled]
  unfold handlePacketSteps
  rw [Stateful.get_bind, Stateful.bind_of_ok (acceptOr_of_ok (Outcome.mapError_eq_ok.mpr h.decoded)), h.flag,
    if_neg (by decide), if_neg (by decide), if_pos rfl]

/-- What is erased after it was written is gone, whatever was there before. -/
theorem erase_insert_eq_self_iff {α : Type} (t : Table α) (key : Bytes) (a : α) :
    (t.insert key a).erase key = t ↔ t.lookup key = none := by
  constructor
  · intro h
    rw [← h, Finmap.lookup_erase]
  · intro h
    apply Finmap.ext_lookup
    intro key'
    by_cases hk : key' = key
    · rw [hk, Finmap.lookup_erase, h]
    · rw [Finmap.lookup_erase_ne hk, Finmap.lookup_insert_of_ne _ hk]

/-- **A refused handshake leaves the sessions alone unless it has passed all the checks but the last** and there is a
session at its endpoint, which is lost then. -/
theorem rejected_handshake_keeps_sessions_iff {env : ClientPrimitives} {data : Bytes} {sender : Endpoint}
    {packet : PacketView}
    {c c' : Discv5Client} (h : RefusedHandshake env data sender packet c c') :
    c'.sessions = c.sessions ↔
      ¬ (PassesChecks env packet (endpointKey env sender) c ∧ ∃ session, c.sessions.lookup (endpointKey env sender) =
        some session) := by
  have hfinal := finalState_of_handshake h
  by_cases hpasses : PassesChecks env packet (endpointKey env sender) c
  · obtain ⟨session, haccept⟩ := hpasses
    rcases frame_handleHandshake_of_ok sender haccept with ⟨-, hframe⟩ | ⟨hplaintext, -⟩
    · rw [← hfinal] at hframe
      rw [hframe.sessions, erase_insert_eq_self_iff]
      constructor
      · intro hnone hsome
        obtain ⟨-, session', hsession'⟩ := hsome
        rw [hnone] at hsession'
        cases hsession'
      · intro hnone
        rw [Option.eq_none_iff_forall_ne_some]
        exact fun session' hsession' => hnone ⟨⟨session, haccept⟩, session', hsession'⟩
    · exact absurd ⟨session, haccept, hplaintext⟩ h.refused
  · have hframe := frame_handleHandshake_of_not_ok sender fun session haccept => hpasses ⟨session, haccept⟩
    rw [← hfinal] at hframe
    exact ⟨fun _ hboth => hpasses hboth.1, fun _ => hframe.sessions⟩

/-- The client has a session with the node and has sent it a challenge. -/
def challengingClient : Discv5Client :=
  { plainClient with
    sessions := (∅ : Table SessionState).insert (endpointKey plainEnv plainEndpoint)
      ⟨.load _ [1], .load _ [2], .load _ (List.replicate 32 7), .load _ (List.replicate 32 7), []⟩
    sentChallenges := (∅ : Table ChallengeState).insert (endpointKey plainEnv plainEndpoint)
      ⟨.load _ (List.replicate 32 7), [], .zero _, .zero _, 0⟩ }

/-- A handshake without authentication data, from the node of the session. -/
theorem empty_handshake_keeps_sessions : ∃ packet c',
    RefusedHandshake plainEnv (plainPacket kFlagHandshake [] []) plainEndpoint packet challengingClient c' ∧
    (challengingClient.sessions.lookup (endpointKey plainEnv plainEndpoint)).isSome = true ∧
    c'.sessions = challengingClient.sessions := by
  have hdecode : decodePacket plainEnv (plainPacket kFlagHandshake [] [])
      (deriveNodeAddress plainEnv challengingClient.config.publicKey)
        = .ok ⟨kFlagHandshake, .zero _, 0, plainPacket kFlagHandshake [] [], [], []⟩ := by decide +kernel
  have hchecks : ¬ PassesChecks plainEnv ⟨kFlagHandshake, .zero _, 0, plainPacket kFlagHandshake [] [], [], []⟩
      (endpointKey plainEnv plainEndpoint) challengingClient := by
    intro h
    obtain ⟨session, haccept⟩ := h
    obtain ⟨⟨auth, hauth, -⟩, -⟩ := acceptHandshake_eq_ok_iff.mp haccept
    cases hauth
  obtain ⟨c', hc'⟩ := Option.isSome_iff_exists.mp
    (show (handlePacket plainEnv (plainPacket kFlagHandshake [] []) plainEndpoint challengingClient).isSome =
      true by decide +kernel)
  have hrefused : RefusedHandshake plainEnv (plainPacket kFlagHandshake [] []) plainEndpoint
      ⟨kFlagHandshake, .zero _, 0, plainPacket kFlagHandshake [] [], [], []⟩ challengingClient c' :=
    ⟨hdecode, rfl, fun ⟨session, haccept, _⟩ => hchecks ⟨session, haccept⟩, hc'⟩
  exact ⟨_, c', hrefused, by decide +kernel, (rejected_handshake_keeps_sessions_iff hrefused).mpr fun h => hchecks h.1⟩

/-- The compressed key of a node, which is its own public key here. -/
def plainKey : Bytes := 2 :: List.replicate 32 7

def plainRecord : Bytes :=
  (Item.list [.string (List.replicate 64 1), .string [1], .string kEnrKeySecp256k1, .string plainKey]).encode

def plainHandshakeAuth : Bytes := makeHandshakeAuthData (.load _ (List.replicate 32 7))
    (List.replicate 64 1) plainKey plainRecord

/-- **A refused handshake loses a session.** Its authentication data are right, and it has no message. -/
theorem refused_handshake_loses_session : ∃ packet c',
    RefusedHandshake plainEnv (plainPacket kFlagHandshake plainHandshakeAuth []) plainEndpoint packet
      challengingClient c' ∧
    (challengingClient.sessions.lookup (endpointKey plainEnv plainEndpoint)).isSome = true ∧
    c'.sessions.lookup (endpointKey plainEnv plainEndpoint) = none := by
  have hdecode : decodePacket plainEnv (plainPacket kFlagHandshake plainHandshakeAuth [])
      (deriveNodeAddress plainEnv challengingClient.config.publicKey)
        = .ok ⟨kFlagHandshake, .zero _, UInt16.ofNat plainHandshakeAuth.length,
            plainPacket kFlagHandshake plainHandshakeAuth [], plainHandshakeAuth, []⟩ := by decide +kernel
  have hrun : (handlePacket plainEnv (plainPacket kFlagHandshake plainHandshakeAuth []) plainEndpoint
      challengingClient).map (fun c' => c'.sessions.lookup (endpointKey plainEnv plainEndpoint)) =
        some none := by decide +kernel
  obtain ⟨c', hc', hlost⟩ := Option.map_eq_some_iff.mp hrun
  refine ⟨_, c', ⟨hdecode, rfl, ?_, hc'⟩, by decide +kernel, hlost⟩
  intro h
  obtain ⟨session, -, plaintext, hplaintext⟩ := h
  cases hplaintext

end DevP2P.Discv5
