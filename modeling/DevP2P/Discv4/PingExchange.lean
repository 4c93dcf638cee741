import DevP2P.Discv4.PingReplies
import DevP2P.Discv4.SentPackets

/-!
# A PING between two clients

* `parsePong_signPacket` : the PONG that `handle_ping` makes is read by `discv4_pong::Parse`;
* `answers_ping` : a client that receives a PING will send such a PONG;
* `ping_between_clients` : a client that waits for the answer to its PING returns the PONG of another client, and each
  has bonded the other.
-/

namespace DevP2P.Discv4
open DevP2P.Lib DevP2P.Rlp Stateful

/-! ## The PONG -/

theorem openList_run {p : Bytes} (hp : p.length < kSizeModulus) (r : Bytes) :
    openList ⟨encodeList p ++ r⟩ = .ok p.length ⟨p ++ r⟩ := by
  unfold openList encodeList
  rw [List.append_assoc, get_bind, isList_headerBytes hp, bind_of_ok (lift_ok true _),
    rejectIf_bind_of_not (by simp)]
  exact readListHeaderBytes_eq_ok_iff.mpr ⟨hp, by simp, rfl⟩

theorem read_encoding {α : Type} {x : DecodeM α} {F : α → Field} (hx : Parses x fun a => (F a).Reads) (v : α)
    (h : (F v).Sized) (r : Bytes) :
    x ⟨(F v).encoding ++ r⟩ = .ok v ⟨r⟩ :=
  (hx _ v r).mpr ⟨_, Field.reads_encoding h, rfl⟩

section

variable (ip : IPv4) (port tcpPort : Uint16) (pingHash : Hash) (expiration : Uint32)

theorem readPong_run : readPong ⟨encodeList (encodeFields (pongFields ip port tcpPort pingHash expiration))⟩ =
    .ok ⟨ip, port, tcpPort, pingHash, expiration, 0⟩ ⟨[]⟩ := by
  have hendpoint := lt_of_le_of_lt (length_endpointFields_le ip port tcpPort) (by decide : 95 < kSizeModulus)
  have hsize (n : Nat) (hn : n ≤ 64) (a : FixedBytes n) : (Field.string a.bytes).Sized :=
    (a.size_eq.le.trans hn).trans_lt (by decide)
  -- the expiration is written as 32 bits and read as 64
  set wide : Uint64 := BitVec.ofNat _ expiration.toNat with hwide
  have hwidth : wide.toNat = expiration.toNat := Nat.mod_eq_of_lt (expiration.isLt.trans (by decide))
  unfold readPong
  rw [← List.append_nil (encodeList _), bind_of_ok
    (openList_run (length_pongFields_lt ip port tcpPort pingHash expiration) [])]
  unfold pongFields
  rw [encodeFields_cons, List.append_nil]
  change (openList >>= _) ⟨encodeList (encodeFields (endpointFields ip port tcpPort)) ++ _⟩ = _
  rw [bind_of_ok (openList_run hendpoint _)]
  unfold endpointFields
  rw [encodeFields_cons, encodeFields_cons, encodeFields_cons, encodeFields_nil, List.append_nil, List.append_assoc,
    List.append_assoc,
    bind_of_ok (read_encoding (Parses.array 4) ip (hsize 4 (by decide) ip) _),
    bind_of_ok (read_encoding (Parses.uint .uint16) port trivial _),
    bind_of_ok (read_encoding (Parses.uint .uint16) tcpPort trivial _), encodeFields_cons,
    bind_of_ok (read_encoding (Parses.array 32) pingHash (hsize 32 (by decide) pingHash) _), encodeFields_cons,
    encodeFields_nil]
  have hexpiration : (Field.number .uint32 expiration).encoding = (Field.number .uint64 wide).encoding := by
    change encodeString (beBytes expiration.toNat) = encodeString (beBytes wide.toNat)
    rw [hwidth]
  rw [hexpiration, bind_of_ok (read_encoding (Parses.uint .uint64) wide trivial _)]
  simp only [get_bind, RlpDecoder.isFinished, List.isEmpty_nil, if_true, pure_bind, skipRest, List.length_nil]
  rw [hwidth, BitVec.ofNat_toNat, BitVec.setWidth_eq]
  rfl

theorem parsePong_signPacket {env : Discv4Primitives} {key : FixedBytes 32} {packet : Bytes}
    (h : signPacket env key (pongPayload ip port tcpPort pingHash expiration) = .ok packet) :
    parsePong packet = .ok ⟨ip, port, tcpPort, pingHash, expiration, 0⟩ := by
  obtain ⟨hlen, hdrop⟩ := signPacket_drop h
  have hbody : packet.drop kWireHeaderSize = encodeList
      (encodeFields (pongFields ip port tcpPort pingHash expiration)) := by
    rw [show kWireHeaderSize = kWirePacketTypeOffset + 1 from rfl, ← List.drop_drop, hdrop]
    rfl
  unfold parsePong
  rw [Outcome.rejectIf_bind_of_not, Outcome.rejectIf_bind_of_not, hbody, readPong_run]
  · rfl
  · rw [not_not]
    exact at_signPacket h
  · rw [hlen]
    simp [pongPayload, kWireHeaderSize, kWirePacketTypeOffset, kWirePacketTypeSize]

end

/-! ## The exchange -/

namespace Discovery

section

variable {env : RequestPrimitives} {node : LocalNode} {d : Discovery}

theorem answers_ping (node : LocalNode) (hlistens : d.Listens) (input : HandlerInput) {data : Bytes} {sender : Endpoint}
    (hlen : kWireHeaderSize ≤ data.length) (htype : Bytes.at data kWirePacketTypeOffset = kPacketTypePing)
    {packet : Bytes}
    (hsign : signPacket env.toDiscv4Primitives d.client.config.privateKey
      (pongPayload sender.address sender.port d.client.config.tcpPort (.load 32 data) (expirationAt input)) =
      .ok packet) :
    (d.step env node (input, .receive data sender)).client =
      { d.client with
        bondedSet := insert (senderKey env.toDiscv4Primitives sender) d.client.bondedSet
        tasks := d.client.tasks ++ [.answerPing (env.addressToString sender.address) sender.port packet] } := by
  rw [step_receive hlistens]
  unfold handlePacket
  rw [rejectIf_bind_of_not (Nat.not_lt.mpr hlen), if_pos htype,
    handlePing_run env.toDiscv4Primitives input sender d.client hlen hsign]
  rfl

theorem bondedSet_of_reaches {d' : Discovery} (h : Reaches env node d d') :
    d.client.bondedSet ⊆ d'.client.bondedSet := by
  obtain ⟨d₁, hmoves, hlast⟩ := h
  have hgrows : d.client.bondedSet ⊆ d₁.client.bondedSet := by
    refine moves_invariant (I := fun d₁ => d.client.bondedSet ⊆ d₁.client.bondedSet) ?_ hmoves subset_rfl
    intro d₁ d₂ hmove h
    refine h.trans ?_
    cases hmove with
    | quiet hquiet => rw [hquiet.client.bondedSet]
    | complete hco _ =>
        rw [client_complete]
        dsimp only
        split
        · exact Finset.subset_insert _ _
        · exact subset_rfl
    | receive input data sender hrunning =>
        unfold Discovery.receive
        rw [if_pos hrunning]
        exact (handlePacket_keeps env.toDiscv4Primitives input data sender d₁.client).2.2.2
    | stop => exact subset_rfl
  rcases hlast with rfl | ⟨input, kind, ip, port, caller, packet, -, rfl⟩
  · exact hgrows
  · rw [client_launch]
    exact hgrows

theorem packet_of_ping {config : Discv4Config} (actions : List (HandlerInput × DiscoveryAction)) {call : Call}
    (hcall : call ∈ (run env node config actions).calls) (hkind : call.kind = .ping) :
    kWireHeaderSize ≤ call.packet.length ∧ Bytes.at call.packet kWirePacketTypeOffset = kPacketTypePing := by
  have htracked : Tracked env config (run env node config actions) :=
    run_invariant (tracked_init env config) (fun hmove h => h.move hmove) (fun hlaunch h => h.launch hlaunch) actions
  obtain ⟨hsent, htype⟩ := htracked.sent call hcall hkind
  obtain ⟨ptype, rest, -, hsign⟩ := (sendsOwn_run actions).sent _ _ _ hsent
  refine ⟨?_, htype⟩
  rw [(signPacket_drop hsign).1]
  simp [kWireHeaderSize, kWirePacketTypeOffset, kWirePacketTypeSize]

theorem lastReply_of_same {env : Discv4Primitives} {call : Call} {events : List Event} {reply : Reply}
    (h : ∀ other ∈ replies env call events, other = reply) : lastReply env call events (some reply) = some reply := by
  unfold lastReply
  cases hlast : (replies env call events).getLast? with
  | none => rfl
  | some last => rw [h last (List.mem_of_getLast? hlast), Option.some_or]

/-- **A PING between two clients succeeds.** A client launches a PING, which waits alone for its endpoint until its wait
ends; another client that listens there receives it, bonds the sender, and spawns the answer. The answer arrives at any
time before the wait ends, and no other PONG with the token of the PING follows it. Then the timer of the call is
cancelled when the answer arrives, and when its wait ends, whatever has happened in between, the call returns the PONG
with what the other client has seen, and the endpoint is bonded. The time of the answer plus a minute is not zero in 32
bits, which would stand for no answer. -/
theorem ping_between_clients (env : RequestPrimitives) (node otherNode : LocalNode) (config : Discv4Config)
    (before during after : List (HandlerInput × DiscoveryAction)) (launching : HandlerInput × DiscoveryAction)
    (input otherInput last : HandlerInput) {call : Call} {other : Discovery} {endpoint otherEndpoint : Endpoint}
    {packet : Bytes} (hkind : call.kind = .ping)
    (hnew : call ∉ (run env node config before).calls) (hother : other.Listens)
    (hip : env.addressToString otherEndpoint.address = call.ip) (hport : otherEndpoint.port = call.port)
    (hsign : signPacket env.toDiscv4Primitives other.client.config.privateKey
      (pongPayload endpoint.address endpoint.port
      other.client.config.tcpPort call.sentHash (expirationAt otherInput)) = .ok packet)
    (hexpiration : (otherInput.unixTime + kPacketExpirySeconds) % 2 ^ 32 ≠ 0)
    (hlistens : (run env node config (before ++ launching :: during)).Listens)
    (halone : ∀ waited, waited <+: during ++ (input, .receive packet otherEndpoint) :: after →
      (run env node config (before ++ launching :: waited)).pingsTo call.ip call.port = [call]) :
    let pong : Discv4Pong :=
      ⟨endpoint.address, endpoint.port, other.client.config.tcpPort, call.sentHash, expirationAt otherInput, 0⟩
    let other' := other.step env otherNode (otherInput, .receive call.packet endpoint)
    let answered := run env node config (before ++ launching :: (during ++ [(input, .receive packet otherEndpoint)]))
    let d := run env node config (before ++ launching :: (during ++ (input, .receive packet otherEndpoint) :: after))
    (∀ reply ∈ replies env.toDiscv4Primitives call (d.trace.drop answered.trace.length), reply = .pong pong) →
    d.terminated = false → ∀ (k : Nat) (caller : Caller), d.coroutines[k]? = some (.request call false caller) →
      other'.client.tasks =
          other.client.tasks ++ [.answerPing (env.addressToString endpoint.address) endpoint.port packet] ∧
        senderKey env.toDiscv4Primitives endpoint ∈ other'.client.bondedSet ∧ call.id ∈ answered.client.cancelled ∧
        d.Returns env node (last, .waitReturns k) call (.ok (.pong pong)) ∧
        endpointKey call.ip call.port ∈ (d.step env node (last, .waitReturns k)).client.bondedSet := by
  intro pong other' answered d hlast hlive k caller hwaits
  have happend (actions : List (HandlerInput × DiscoveryAction)) : before ++ launching ::
      (during ++ (input, .receive packet otherEndpoint) :: actions) =
        before ++ launching :: (during ++ [(input, .receive packet otherEndpoint)]) ++ actions := by simp
  have hbefore := awaits_run hkind hnew fun waited h => halone waited (h.trans (List.prefix_append _ _))
  obtain ⟨hlen, htype⟩ := packet_of_ping _ hbefore.alone.mem hkind
  have hanswer : other'.client = _ := answers_ping otherNode hother otherInput hlen htype hsign
  -- the answer is put into the slot of the call, and its timer is cancelled
  have hreply : call.replyIn env.toDiscv4Primitives packet otherEndpoint = some (.pong pong) :=
    replyIn_eq_some_iff.mpr ⟨⟨hip, hport⟩, .inl ⟨hkind, pong, parsePong_signPacket _ _ _ _ _ hsign, rfl, rfl⟩⟩
  have hclient : answered.client = finalState
      (handlePacket env.toDiscv4Primitives input packet otherEndpoint
        (run env node config (before ++ launching :: during)).client) := by
    rw [← step_receive hlistens, ← run_concat, List.append_assoc, List.cons_append]
  obtain ⟨hslot, hcancelled⟩ := slot_of_replyIn input (hbefore.entry_of_running hlistens.1) hreply
  rw [← hclient] at hslot hcancelled
  -- and it stays there
  have hanswered : Awaits env call _ none answered :=
    awaits_run hkind hnew fun waited h => halone waited (h.trans ⟨after, by simp⟩)
  have hawaits : Awaits env call answered.trace (some (.pong pong)) d := by
    have hrun := hanswered.rebase
    rw [hslot] at hrun
    show Awaits _ _ _ _ (run env node config _)
    rw [happend]
    refine hrun.run (fun waited hwaited _ => alone_of_pingsTo hkind ?_) ?_
    · rw [← happend]
      exact halone _ (by simpa using hwaited)
    · rw [← happend]
      exact mem_calls _ _ _ hwaits
  obtain ⟨events, htrace, hfinal⟩ := hawaits.slot
  rw [htrace, List.drop_left] at hlast
  rw [lastReply_of_same hlast] at hfinal
  have hzero : pong.expiration ≠ 0 := fun h => hexpiration (congrArg BitVec.toNat h)
  have houtcome : call.outcome d.client = .ok (.pong pong) := by
    rw [outcome_of_slot hfinal, if_pos (show (Reply.pong pong).usable = true from decide_eq_true hzero)]
  rw [hanswer]
  refine ⟨rfl, Finset.mem_insert_self _ _, hcancelled, houtcome ▸ returns_outcome hlive hwaits last, ?_⟩
  refine bondedSet_of_reaches (reaches_of_wait hlive hwaits last) ?_
  rw [houtcome, client_complete]
  exact Finset.mem_insert_self _ _

end

/-- The answer of a client with the same key to the PING of `pinging`. -/
def sampleReply : Bytes :=
  (signPacket tailEnv.toDiscv4Primitives sampleConfig.privateKey
    (pongPayload samplePeer.address samplePeer.port 30303 (samplePing 0 0).sentHash 60)).toOption.getD []

/-- The answer arrives before the send is over, and then a PING of another node. -/
def answeredEarly : List (HandlerInput × DiscoveryAction) :=
  [(⟨1, fun _ => 0⟩, .receive sampleReply samplePeer), (⟨1, fun _ => 0⟩, .sendReturns 0 true),
    (⟨2, fun _ => 0⟩, .receive forgedPing ⟨.zero 4, 30303⟩)]

theorem ping_between_clients_sample :
    (run tailEnv sampleNode sampleConfig (pinging :: answeredEarly)).Returns tailEnv sampleNode
      (⟨2, fun _ => 0⟩, .waitReturns 0) (samplePing 0 0)
      (.ok (.pong ⟨samplePeer.address, samplePeer.port, 30303, (samplePing 0 0).sentHash, 60, 0⟩)) := by
  have halone : ∀ waited ∈ answeredEarly.inits, (run tailEnv sampleNode sampleConfig ([] ++ pinging :: waited)).pingsTo
      (samplePing 0 0).ip (samplePing 0 0).port = [samplePing 0 0] := by decide +kernel
  have hsign : signPacket tailEnv.toDiscv4Primitives sampleConfig.privateKey (pongPayload samplePeer.address
      samplePeer.port 30303 (samplePing 0 0).sentHash 60) = .ok sampleReply := by decide +kernel
  have hexchange := ping_between_clients tailEnv sampleNode sampleNode sampleConfig [] [] answeredEarly.tail pinging
    ⟨1, fun _ => 0⟩ ⟨0, fun _ => 0⟩ ⟨2, fun _ => 0⟩ (show (samplePing 0 0).kind = .ping from rfl) (by decide +kernel)
    (show (init sampleConfig).Listens from ⟨rfl, rfl⟩)
    (show tailEnv.addressToString samplePeer.address = _ from rfl) rfl
    hsign (by decide) ⟨by decide +kernel, by decide +kernel⟩
      (fun waited h => halone waited ((List.mem_inits _ _).mpr h))
  exact (hexchange (by decide +kernel) (by decide +kernel) 0 .outside (by decide +kernel)).2.2.2.1

end Discovery

end DevP2P.Discv4
