import DevP2P.Rlpx.HandshakeSecrets

/-!
# The two roles against each other

An initiator and a responder over a reliable channel: each reads what the other writes. The two roles do not
speak the same protocol. The responder takes the fields of the auth message at fixed offsets where the initiator
wrote an RLP list, it answers with fixed fields and no MAC data where the initiator expects a list and the length
prefix as MAC data, and it seeds its MACs without the length prefixes.

* `Connected` : the two runs; `exists_connected` : there always are two;
* `Agreement` : what both ends should have at the end;
* `never_agreement` : the last difference alone rules it out, for all keys, nonces and messages.
-/

namespace DevP2P.Rlpx
open DevP2P.Lib DevP2P.Rlp Stateful

/-- One end: its configuration, what it draws, and what its memory holds at first. -/
structure Party where
  random : HandshakeRandomness
  uninit : UninitMemory
  config : HandshakeConfig

abbrev HandshakeOutcome := EStateM.Result SessionError SocketTransport HandshakeResult

/-- A connection on which the peer sends `incoming`. -/
def SocketTransport.fresh (incoming : Bytes) : SocketTransport := ⟨incoming, .eof, [], none, .brokenPipe⟩

variable (env : RlpxPrimitives)

def Party.run (party : Party) (incoming : Bytes) : HandshakeOutcome :=
  execute env party.random party.uninit party.config (.fresh incoming)

def written {α : Type} : EStateM.Result SessionError SocketTransport α → Bytes
  | .ok _ t => t.outgoing
  | .error _ t => t.outgoing

/-- Each end reads what the other one writes. -/
structure Connected (initiator responder : Party) (a b : HandshakeOutcome) : Prop where
  initiator : a = initiator.run env (written b)
  responder : b = responder.run env (written a)

/-- The responder has the initiator's static key and nonce, the initiator has the responder's ephemeral key and
nonce, and their secrets match. -/
structure Agreement (initiator responder : Party) (a b : HandshakeResult) : Prop where
  authKey : b.keyMaterial.peerPublicKey = initiator.config.localPublicKey
  authNonce : some b.keyMaterial.initiatorNonce = initiator.random.nonce
  ackKey : ∃ priv, Ecdh.generateEphemeralKeypair env responder.random.keyDraws =
    .ok ⟨a.keyMaterial.peerEphemeralPublicKey, priv⟩
  ackNonce : some a.keyMaterial.recipientNonce = responder.random.nonce
  mirrored : Mirrored a.frameSecrets b.frameSecrets

variable {env}

/-! ## Connected runs -/

def WritesNothing {α : Type} (x : TransportM α) : Prop := ∀ t, written (x t) = t.outgoing

section

variable {α β : Type} {x : TransportM α} {f : α → TransportM β}

theorem written_bind (hf : ∀ a, WritesNothing (f a)) (t : SocketTransport) :
    written ((x >>= f) t) = written (x t) := by
  cases hx : x t with
  | ok a t1 => rw [bind_of_ok hx, hf a t1, written]
  | error e t1 => rw [bind_of_error hx, written, written]

theorem WritesNothing.bind (hx : WritesNothing x) (hf : ∀ a, WritesNothing (f a)) : WritesNothing (x >>= f) :=
  fun t => (written_bind hf t).trans (hx t)

theorem WritesNothing.withError (hx : WritesNothing x) (e : SessionError) :
    WritesNothing (Stateful.withError e x) := by
  intro t
  rw [← hx t]
  unfold Stateful.withError
  cases x t with
  | ok a t1 => rfl
  | error e t1 => rfl

theorem writesNothing_pure (a : α) : WritesNothing (pure a : TransportM α) := fun _ => rfl

theorem writesNothing_orFail {ε : Type} (y : Except ε α) : WritesNothing (orFail y) := by
  intro t
  cases y with
  | ok a => rfl
  | error e => rfl

theorem writesNothing_rejectIf (c : Prop) [Decidable c] (e : SessionError) :
    WritesNothing (rejectIf c e : TransportM Unit) := by
  intro t
  unfold rejectIf
  split_ifs
  · rfl
  · rfl

theorem writesNothing_readExact (n : Nat) : WritesNothing (readExact n) := by
  intro t
  unfold readExact
  split_ifs
  · rfl
  · rfl

end

theorem writesNothing_readPacket : WritesNothing readPacket :=
  ((writesNothing_readExact _).withError _).bind fun _ => (writesNothing_rejectIf _ _).bind fun _ =>
    ((writesNothing_readExact _).withError _).bind fun _ => writesNothing_pure _

theorem writesNothing_receiveAck {uninit : AuthKeyMaterial} {config : HandshakeConfig} {peer : PublicKey}
    {keypair : Ecdh.KeyPair} {nonce : Nonce} {authWire : Bytes} :
    WritesNothing (receiveAck env uninit config peer keypair nonce authWire) :=
  writesNothing_readPacket.bind fun _ => (writesNothing_orFail _).bind fun _ => writesNothing_pure _

/-- An initiator writes its auth message, whatever its peer sends. -/
theorem written_initiator {party : Party} {peer : PublicKey} (hpeer : party.config.peerPublicKey = some peer)
    (incoming incoming' : Bytes) : written (party.run env incoming) = written (party.run env incoming') := by
  unfold Party.run execute
  rw [written_bind fun _ => writesNothing_pure _, written_bind fun _ => writesNothing_pure _]
  unfold exchange
  rw [hpeer]
  cases Ecdh.generateEphemeralKeypair env party.random.keyDraws with
  | error e => rfl
  | ok keypair =>
      cases party.random.nonce with
      | none => rfl
      | some nonce =>
          show written (initiate env party.random party.uninit.keyMaterial party.config peer keypair nonce _) =
            written (initiate env party.random party.uninit.keyMaterial party.config peer keypair nonce _)
          unfold initiate
          rw [written_bind fun _ => writesNothing_receiveAck, written_bind fun _ => writesNothing_receiveAck]
          unfold sendAuth
          cases createAuthMessage env party.random party.config.localPrivateKey party.config.localPublicKey
            keypair.privateKey nonce peer with
          | error e => rfl
          | ok auth => rfl

theorem exists_connected {initiator responder : Party} {peer : PublicKey}
    (hpeer : initiator.config.peerPublicKey = some peer) : ∃ a b, Connected env initiator responder a b := by
  refine ⟨initiator.run env (written (responder.run env (written (initiator.run env [])))),
    responder.run env (written (initiator.run env [])), rfl, ?_⟩
  exact congrArg (responder.run env) (written_initiator hpeer [] _)

/-! ## Seeds -/

theorem length_egress_keccakChain (keys : AuthKeyMaterial) (secret : SharedSecret) :
    (keccakChain env keys true secret).egressMacSeed.length = 32 + keys.initiatorAuthMessage.length := by
  simp [keccakChain, macSeedBytes]

theorem length_ingress_deriveFrameSecrets_le (uninit : UninitSecrets) (keys : AuthKeyMaterial) :
    (deriveFrameSecrets env uninit keys false).ingressMacSeed.length ≤ 32 + keys.initiatorAuthMessage.length := by
  unfold deriveFrameSecrets
  cases Ecdh.computeSharedSecret env keys.peerEphemeralPublicKey keys.localEphemeralPrivateKey with
  | error e => simp [UninitSecrets.secrets]
  | ok secret => simp [keccakChain, macSeedBytes]

theorem length_body_le {p : Packet} {auth rest : Bytes} (h : p.Leads (withPrefix auth) rest) :
    p.body.length ≤ auth.length := by
  have hlen : p.lenBytes.length = 2 := h.2.1
  have hwire := congrArg List.length h.1
  simp only [withPrefix, lengthPrefix, Packet.wire, List.length_append, hlen, List.length_cons,
    List.length_nil] at hwire
  omega

theorem egress_of_initiator {party : Party} {peer : PublicKey} {incoming : Bytes} {a : HandshakeResult}
    {t : SocketTransport} (hpeer : party.config.peerPublicKey = some peer)
    (hecdh : ∀ k, Ecdh.generateEphemeralKeypair env party.random.keyDraws = .ok k →
      ∃ secret, Ecdh.computeSharedSecret env a.keyMaterial.peerEphemeralPublicKey k.privateKey = .ok secret)
    (h : party.run env incoming = .ok a t) :
    ∃ auth, t.outgoing = withPrefix auth ∧ a.frameSecrets.egressMacSeed.length = 34 + auth.length := by
  obtain ⟨hex, hsec⟩ := execute_eq_ok_iff.mp h
  obtain ⟨keypair, hkey, nonce, -, hrun⟩ := exchange_eq_ok_iff.mp hex
  rw [hpeer] at hrun
  obtain ⟨auth, -, -, ack, -, plain, -, ackKey, ackNonce, d, -, hkeys, ht⟩ := initiate_eq_ok_iff.mp hrun
  obtain ⟨secret, hecdh⟩ := hecdh keypair hkey
  refine ⟨auth, by rw [ht]; rfl, ?_⟩
  have hinit : party.config.isInitiator = true := by rw [HandshakeConfig.isInitiator, hpeer]; rfl
  have hpriv : a.keyMaterial.localEphemeralPrivateKey = keypair.privateKey := by rw [hkeys]; rfl
  rw [hsec, hinit, deriveFrameSecrets_of_ok (hpriv ▸ hecdh), length_egress_keccakChain, hkeys]
  show 32 + (withPrefix auth).length = _
  simp only [withPrefix, lengthPrefix, List.length_append, List.length_cons, List.length_nil]
  omega

theorem ingress_of_responder {party : Party} {auth : Bytes} {b : HandshakeResult} {t : SocketTransport}
    (hpeer : party.config.peerPublicKey = none) (h : party.run env (withPrefix auth) = .ok b t) :
    b.frameSecrets.ingressMacSeed.length ≤ 32 + auth.length := by
  obtain ⟨hex, hsec⟩ := execute_eq_ok_iff.mp h
  obtain ⟨keypair, -, nonce, -, hrun⟩ := exchange_eq_ok_iff.mp hex
  rw [hpeer] at hrun
  obtain ⟨p, hlead, body, -, -, ack, -, -, hkeys, -⟩ := respond_eq_ok_iff.mp hrun
  have hinit : party.config.isInitiator = false := by rw [HandshakeConfig.isInitiator, hpeer]; rfl
  have hseed := @length_ingress_deriveFrameSecrets_le env party.uninit.frameSecrets b.keyMaterial
  have hmsg : b.keyMaterial.initiatorAuthMessage = p.body := by rw [hkeys]; rfl
  have hbody := length_body_le hlead
  rw [hmsg] at hseed
  rw [hsec, hinit]
  omega

/-- **The two roles never agree.** For all static and ephemeral keys such that the ECDH of the ephemeral keys
succeeds, all nonces and all other draws: in no pair of connected runs do both ends succeed, learn each other's
keys and nonces, and have matching secrets. -/
theorem never_agreement (env : RlpxPrimitives) (initiator responder : Party)
    (hinit : initiator.config.peerPublicKey = some responder.config.localPublicKey)
    (hresp : responder.config.peerPublicKey = none)
    (hecdh : ∀ k k', Ecdh.generateEphemeralKeypair env initiator.random.keyDraws = .ok k →
      Ecdh.generateEphemeralKeypair env responder.random.keyDraws = .ok k' →
      ∃ secret, Ecdh.computeSharedSecret env k'.publicKey k.privateKey = .ok secret)
    (ra rb : HandshakeOutcome) (hrun : Connected env initiator responder ra rb) :
    ¬ ∃ a b t t', ra = .ok a t ∧ rb = .ok b t' ∧ Agreement env initiator responder a b := by
  intro h
  obtain ⟨a, b, t, t', rfl, rfl, hagree⟩ := h
  obtain ⟨priv, hackKey⟩ := hagree.ackKey
  obtain ⟨auth, hwritten, hegress⟩ :=
    egress_of_initiator hinit (fun k hk => hecdh k _ hk hackKey) hrun.initiator.symm
  have hresponder : responder.run env (withPrefix auth) = .ok b t' := by
    rw [← hwritten]
    exact hrun.responder.symm
  have hingress := ingress_of_responder hresp hresponder
  rw [← hagree.mirrored.egress, hegress] at hingress
  omega

/-- The two ends with the static private keys `2` and `5`. -/
def sampleDialer : Party := ⟨sampleRandomness 3 sampleNonceNat 7 1, zeroMemory, sampleInitiator⟩

def sampleListener : Party :=
  ⟨sampleRandomness 13 sampleNonceNat 17 2, zeroMemory, ⟨samplePub 5, sampleKey 5, none⟩⟩

def sampleAuth : Bytes :=
  wordBytes
    [0x017e045cbdf0646e5db4eaa398f365f2ea7a0e3d419b7e0330e39ce92bddedca,
    0xc4f9bc6aebca40ba255960a3178d6d861a54dba813d0b813fde7b5a508262808,
    0x7264da01000000000000000000000000000000d7b45ba4df07eff4080a40a603,
    0x7ff4b085bd9e84de1e487a547672be99f5d672effcd2f604ff40eb44a943c0f9,
    0xd88bff1b0f60d2a5411795fffe1c5fef1d2b5678c58e7a77aec73b669b3d25d3,
    0x1cb93b30b96a26c5fadd0c37bb2e9a357b649742609189979c7f405d8cd30a81,
    0xab4176a9481169b9388855853b3dae41671b0344b3bfc085cdb822af8fe9d5cd,
    0x8a02616085ebd2bb7e87d3cb6b622d2e54f199c1332992b176c86a0b8e538563,
    0xe076ad8287f071600a8cb99365b3cb1f2304212835da752909759a2f14340fd0,
    0x75225244079735f24658c40135dadb5dc0c1ab2b576053f67fa8169f468541e8,
    0xb352e46f4bf1de5fe6209097a89e134856fd8d1d65880979f63f1fead70301bd,
    0x4ac523db44e7d1510ce35602ac7153f800ef88fd903254e966a93cb333d0e7b9]

/-- Where the first one ends: it has written its auth message and reads no ack. -/
def sampleDialerOutcome : HandshakeOutcome :=
  .error .kAuthenticationFailed ⟨[], .eof, sampleAuth, none, .brokenPipe⟩

/-- Where the second one ends: it has read the auth message and writes nothing. -/
def sampleListenerOutcome : HandshakeOutcome := .error .kAuthenticationFailed (.fresh [])

theorem sample_connected :
    Connected handshakeEnv sampleDialer sampleListener sampleDialerOutcome sampleListenerOutcome := by
  have hdialer : sampleDialer.run handshakeEnv [] = sampleDialerOutcome := by decide +kernel
  have hlistener : sampleListener.run handshakeEnv sampleAuth = sampleListenerOutcome := by decide +kernel
  exact ⟨hdialer.symm, hlistener.symm⟩

theorem sample_never_agree :
    Connected handshakeEnv sampleDialer sampleListener sampleDialerOutcome sampleListenerOutcome ∧
    ¬ ∃ a b t t', sampleDialerOutcome = .ok a t ∧ sampleListenerOutcome = .ok b t' ∧
      Agreement handshakeEnv sampleDialer sampleListener a b := by
  have hk : Ecdh.generateEphemeralKeypair handshakeEnv sampleDialer.random.keyDraws =
      .ok ⟨samplePub 3, sampleKey 3⟩ := by decide +kernel
  have hk' : Ecdh.generateEphemeralKeypair handshakeEnv sampleListener.random.keyDraws =
      .ok ⟨samplePub 13, sampleKey 13⟩ := by decide +kernel
  have hecdh : Ecdh.computeSharedSecret handshakeEnv (samplePub 13) (sampleKey 3) =
      .ok (.load _ ((samplePub 39).bytes)) := by decide +kernel
  refine ⟨sample_connected, never_agreement handshakeEnv sampleDialer sampleListener rfl rfl ?_ _ _ sample_connected⟩
  intro k k' h h'
  obtain rfl := Except.ok.inj (hk.symm.trans h)
  obtain rfl := Except.ok.inj (hk'.symm.trans h')
  exact ⟨_, hecdh⟩

/-- **The two ends fail.** The responder takes 64 bytes across two fields of the auth message for the initiator's
key and cannot encrypt its ack for it. -/
theorem sample_handshake_fails : ∃ ra rb, Connected handshakeEnv sampleDialer sampleListener ra rb ∧
    Stateful.outcome ra = .error .kAuthenticationFailed ∧ Stateful.outcome rb = .error .kAuthenticationFailed :=
  ⟨_, _, sample_connected, rfl, rfl⟩

end DevP2P.Rlpx
