import DevP2P.Discv4.Bonding
import DevP2P.Discv4.Exploration

/-!
# The packets that the client sends

* `RecoversAt` : the law of the library that `verify_packet` rests on, at one hash; `verifyPacket_signPacket` :
  `verify_packet` accepts what `sign_packet` has made, and names the signer;
* `Outgoing` : a packet of one of the four types that the client sends, signed with its key;
* `sent_packets_verify` : every packet that is sent in a run is one.
-/

namespace DevP2P.Discv4
open DevP2P.Lib DevP2P.Rlp

/-! ## Signing and verifying -/

/-- `P` is recovered from the signature that `key` makes of a hash. -/
def RecoversAt (env : Discv4Primitives) (key : FixedBytes 32) (P : env.secp.PubKey) (hash : Hash) : Prop :=
  ∀ sig, env.secp.signRecoverable hash key = some sig →
    ∃ s, env.recoverableParseCompact (env.secp.recoverableSerializeCompact sig).1
        (env.secp.recoverableSerializeCompact sig).2.val = some s ∧ env.ecdsaRecover s hash = some P

/-- The node id of a public key: its serialisation without the tag. -/
def keyNodeId (secp : Secp256k1) (P : secp.PubKey) : NodeId :=
  .load _ ((secp.serializeUncompressed P).bytes.drop kWirePacketTypeSize)

theorem signPacket_drop {env : Discv4Primitives} {key : FixedBytes 32} {payload packet : Bytes}
    (h : signPacket env key payload = .ok packet) :
    packet.length = kWirePacketTypeOffset + payload.length ∧ packet.drop kWirePacketTypeOffset = payload := by
  unfold signPacket at h
  rw [Outcome.rejectIf_bind_eq_ok, Outcome.bind_eq_ok] at h
  obtain ⟨-, sig, -, hpacket⟩ := h
  obtain rfl := Outcome.pure_eq_ok.mp hpacket
  constructor
  · simp [kWirePacketTypeOffset, kWireHashSize, kWireSigSize]
    omega
  · refine List.drop_left' ?_
    simp [kWirePacketTypeOffset, kWireHashSize, kWireSigSize]

theorem verifyPacket_signPacket {env : Discv4Primitives} {key : FixedBytes 32} {P : env.secp.PubKey}
    {payload packet : Bytes}
    (hrecovers : RecoversAt env key P (env.keccak256 payload)) (hpayload : payload ≠ [])
    (hsign : signPacket env key payload = .ok packet) : verifyPacket env packet = .ok (keyNodeId env.secp P) := by
  unfold signPacket at hsign
  rw [Outcome.rejectIf_bind_eq_ok, Outcome.bind_eq_ok] at hsign
  obtain ⟨hcontext, sig, hsig, hpacket⟩ := hsign
  obtain rfl := Outcome.pure_eq_ok.mp hpacket
  obtain ⟨s, hparse, hrecover⟩ := hrecovers _ (Outcome.unwrap_eq_ok.mp hsig)
  set compact := env.secp.recoverableSerializeCompact sig with hcompact
  set sigBytes := compact.1.bytes ++ [UInt8.ofNat compact.2.val] with hsigBytes
  set hash := env.keccak256 (sigBytes ++ payload) with hhash
  have hsigLen : sigBytes.length = kWireSigSize := by simp [hsigBytes, kWireSigSize]
  have hpos := List.length_pos_iff.mpr hpayload
  have hfront : (hash.bytes ++ sigBytes ++ payload).take kWireHashSize = hash.bytes := by
    rw [List.append_assoc]
    exact List.take_left' hash.size_eq
  have hrest : (hash.bytes ++ sigBytes ++ payload).drop kWireHashSize = sigBytes ++ payload := by
    rw [List.append_assoc]
    exact List.drop_left' hash.size_eq
  have hsigData : ((hash.bytes ++ sigBytes ++ payload).drop kWireHashSize).take kWireSigSize = sigBytes := by
    rw [hrest]
    exact List.take_left' hsigLen
  have hbody : (hash.bytes ++ sigBytes ++ payload).drop (kWireHashSize + kWireSigSize) = payload := by
    rw [← List.drop_drop, hrest]
    exact List.drop_left' hsigLen
  have hrecid : (Bytes.at sigBytes (kWireSigSize - 1)).toNat = compact.2.val := by
    have hat : Bytes.at sigBytes (kWireSigSize - 1) = UInt8.ofNat compact.2.val := by
      rw [hsigBytes, show kWireSigSize - 1 = compact.1.bytes.length + 0 by
        rw [compact.1.size_eq]; rfl, Bytes.at_append_right]
      rfl
    rw [hat, UInt8.toNat_ofNat']
    exact Nat.mod_eq_of_lt (by omega)
  have hload : (.load 64 sigBytes : FixedBytes 64) = compact.1 := FixedBytes.load_append _ _
  unfold verifyPacket
  rw [Outcome.rejectIf_bind_of_not
    (by simp [hsigLen, kWireHeaderSize, kWireHashSize, kWireSigSize, kWirePacketTypeSize]; omega)]
  dsimp only
  rw [hsigData, hbody, hfront, Outcome.rejectIf_bind_of_not (by simp [hhash]),
    Outcome.rejectIf_bind_of_not hcontext, hrecid, hload,
    hparse, Outcome.unwrap_some]
  dsimp only [bind, Except.bind]
  rw [hrecover, Outcome.unwrap_some]
  rfl

/-! ## The packets of a client -/

/-- A packet of one of the types that the client sends, signed with its key. -/
def Outgoing (env : Discv4Primitives) (key : FixedBytes 32) (packet : Bytes) : Prop :=
  ∃ ptype rest, ptype ∈ [kPacketTypePing, kPacketTypePong, kPacketTypeFindNode, kPacketTypeEnrRequest] ∧
    signPacket env key (ptype :: rest) = .ok packet

theorem requestPayload_cons {env : RequestPrimitives} {node : LocalNode} {config : Discv4Config} {input : HandlerInput}
    {kind : RequestKind}
    {ip : Bytes} {port : Uint16} (h : requestPayload env node config input kind ip port ≠ []) :
    ∃ ptype rest, ptype ∈ [kPacketTypePing, kPacketTypePong, kPacketTypeFindNode, kPacketTypeEnrRequest] ∧
      requestPayload env node config input kind ip port = ptype :: rest := by
  have hcons {ptype : UInt8} {encode : EncodeM Bytes} (hne : rlpPayload ptype encode ≠ []) :
      ∃ rest, rlpPayload ptype encode = ptype :: rest := by
    unfold rlpPayload at hne ⊢
    cases hencode : Stateful.outcome (encode RlpEncoder.new) with
    | ok bytes => exact ⟨bytes, rfl⟩
    | error e =>
        rw [hencode] at hne
        exact absurd rfl hne
  cases kind with
  | ping => exact ⟨kPacketTypePing, (hcons h).choose, by simp, (hcons h).choose_spec⟩
  | enrRequest => exact ⟨kPacketTypeEnrRequest, (hcons h).choose, by simp, (hcons h).choose_spec⟩
  | findNode targetId => exact ⟨kPacketTypeFindNode, (hcons h).choose, by simp, (hcons h).choose_spec⟩

theorem outgoing_requestPacket {env : RequestPrimitives} {node : LocalNode} {config : Discv4Config}
    {input : HandlerInput}
    {kind : RequestKind} {ip packet : Bytes} {port : Uint16}
    (h : requestPacket env node config input kind ip port = .ok packet) :
    Outgoing env.toDiscv4Primitives config.privateKey packet := by
  unfold requestPacket at h
  rw [Outcome.rejectIf_bind_eq_ok, Outcome.mapError_eq_ok] at h
  obtain ⟨hpayload, hsign⟩ := h
  obtain ⟨ptype, rest, hptype, hcons⟩ := requestPayload_cons hpayload
  exact ⟨ptype, rest, hptype, hcons ▸ hsign⟩

namespace Discovery

theorem AnswersPing.outgoing {env : Discv4Primitives} {config : Discv4Config} {packet : Bytes}
    (h : AnswersPing env config packet) :
    Outgoing env config.privateKey packet := by
  obtain ⟨ip, port, pingHash, expiration, hsign⟩ := h
  exact ⟨kPacketTypePong, _, by simp, hsign⟩

/-- All that was sent, and all that the tasks will send, is of the client. -/
structure SendsOwn (env : Discv4Primitives) (config : Discv4Config) (d : Discovery) : Prop where
  config_eq : d.client.config = config
  tasks : ∀ ip port packet, Task.answerPing ip port packet ∈ d.client.tasks → Outgoing env config.privateKey packet
  sent : ∀ packet ip port, Event.sent packet ip port ∈ d.trace → Outgoing env config.privateKey packet

section

variable {env : RequestPrimitives} {node : LocalNode} {config : Discv4Config} {d d' : Discovery}

theorem SendsOwn.advances (h : SendsOwn env.toDiscv4Primitives config d) (hadvances : Advances env node d d') :
    SendsOwn env.toDiscv4Primitives config d' := by
  refine ⟨hadvances.config.trans h.config_eq, fun ip port packet htask =>
    h.tasks ip port packet (hadvances.tasks htask), ?_⟩
  intro packet ip port hsent
  rcases hadvances.sent packet ip port hsent with hold | ⟨input, kind, hpacket⟩ | hanswer
  · exact h.sent packet ip port hold
  · exact h.config_eq ▸ outgoing_requestPacket hpacket
  · exact h.tasks ip port packet hanswer

theorem SendsOwn.receive (h : SendsOwn env.toDiscv4Primitives config d) (input : HandlerInput) (data : Bytes)
    (sender : Endpoint) :
    SendsOwn env.toDiscv4Primitives config (d.receive env input data sender) := by
  unfold Discovery.receive
  split_ifs
  · have hpacket := discovers_handlePacket env.toDiscv4Primitives input sender d.client data
    obtain ⟨tasks, htasks, -, -, hanswers⟩ := hpacket.tasks
    refine ⟨hpacket.config.trans h.config_eq, ?_, ?_⟩
    · intro ip port packet htask
      change Task.answerPing ip port packet ∈
        (Stateful.finalState (handlePacket env.toDiscv4Primitives input data sender d.client)).tasks at htask
      rw [htasks] at htask
      rcases List.mem_append.mp htask with hold | hnew
      · exact h.tasks ip port packet hold
      · exact (h.config_eq ▸ hanswers ip port packet hnew).outgoing
    · intro packet ip port hsent
      rcases List.mem_append.mp hsent with hold | hnew
      · exact h.sent packet ip port hold
      · cases List.mem_singleton.mp hnew
  · exact h

theorem SendsOwn.step (h : SendsOwn env.toDiscv4Primitives config d) (action : HandlerInput × DiscoveryAction) :
    SendsOwn env.toDiscv4Primitives config (d.step env node action) := by
  unfold Discovery.step
  split_ifs
  · exact h
  · obtain ⟨input, action⟩ := action
    by_cases haction : ∃ data sender, action = .receive data sender
    · obtain ⟨data, sender, rfl⟩ := haction
      exact h.receive input data sender
    · exact h.advances (passes_act (fun data sender heq => haction ⟨data, sender, heq⟩) d).toAdvances

theorem sendsOwn_run (actions : List (HandlerInput × DiscoveryAction)) :
    SendsOwn env.toDiscv4Primitives config (run env node config actions) := by
  induction actions using List.reverseRecOn with
  | nil => exact ⟨rfl, by simp [run, init], by simp [run, init]⟩
  | append_singleton actions action ih =>
      rw [run_concat]
      exact ih.step action

/-- **What the client sends is verified as its own**, in every run: a packet that is sent is a PING, a PONG, a FIND_NODE
or an ENR_REQUEST, and, where the key of the client is recovered from its signature of the payload, `verify_packet`
accepts the packet and returns the node id of the key. NEIGHBOURS and ENR_RESPONSE are never sent. -/
theorem sent_packets_verify (env : RequestPrimitives) (node : LocalNode) (config : Discv4Config)
    (actions : List (HandlerInput × DiscoveryAction)) {packet ip : Bytes} {port : Uint16}
    (hsent : Event.sent packet ip port ∈ (run env node config actions).trace) :
    Bytes.at packet kWirePacketTypeOffset ∈ [kPacketTypePing, kPacketTypePong, kPacketTypeFindNode,
      kPacketTypeEnrRequest] ∧
      ∀ P : env.secp.PubKey, RecoversAt env.toDiscv4Primitives config.privateKey P
          (env.keccak256 (packet.drop kWirePacketTypeOffset)) →
        verifyPacket env.toDiscv4Primitives packet = .ok (keyNodeId env.secp P) := by
  obtain ⟨ptype, rest, hptype, hsign⟩ := (sendsOwn_run actions).sent packet ip port hsent
  refine ⟨at_signPacket hsign ▸ hptype, fun P hrecovers => ?_⟩
  rw [(signPacket_drop hsign).2] at hrecovers
  exact verifyPacket_signPacket hrecovers (List.cons_ne_nil _ _) hsign

end

/-- The answer to a PING that `samplePeer` has sent. -/
def sampleAnswer : Bytes :=
  (signPacket requestEnv.toDiscv4Primitives sampleConfig.privateKey
    (pongPayload samplePeer.address samplePeer.port sampleConfig.tcpPort (.load 32 forgedPing) 60)).toOption.getD []

theorem recoversAt_sampleAnswer : RecoversAt requestEnv.toDiscv4Primitives sampleConfig.privateKey Curve.generator
    (keccak256 (sampleAnswer.drop kWirePacketTypeOffset)) := by
  have hrecover : (((requestEnv.secp.signRecoverable (keccak256 (sampleAnswer.drop kWirePacketTypeOffset))
      sampleConfig.privateKey).bind fun sig =>
        (requestEnv.recoverableParseCompact (requestEnv.secp.recoverableSerializeCompact sig).1
          (requestEnv.secp.recoverableSerializeCompact sig).2.val).bind fun s =>
            requestEnv.ecdsaRecover s (keccak256 (sampleAnswer.drop kWirePacketTypeOffset))) : Option Curve.Point) =
      some Curve.generator := by
    decide +kernel
  intro sig hsig
  change requestEnv.secp.signRecoverable _ _ = _ at hsig
  rw [hsig, Option.bind_some] at hrecover
  exact Option.bind_eq_some_iff.mp hrecover

theorem sent_packets_verify_sample :
    verifyPacket requestEnv.toDiscv4Primitives sampleAnswer = .ok (keyNodeId requestEnv.secp Curve.generator) :=
  (sent_packets_verify requestEnv sampleNode sampleConfig
    [(⟨0, fun _ => 0⟩, .receive forgedPing samplePeer), (⟨0, fun _ => 0⟩, .runTask 0)]
    (show Event.sent sampleAnswer (requestEnv.addressToString samplePeer.address) samplePeer.port ∈
      _ by decide +kernel)).2
    _ recoversAt_sampleAnswer

end Discovery

end DevP2P.Discv4
