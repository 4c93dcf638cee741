import DevP2P.Discv4.RequestSteps

/-!
# Which endpoints are bonded

* `PongMatched` : a PING was sent to an endpoint, and then a PONG with its hash was received from there;
* `Invited` : a PING of an endpoint was answered;
* `Tracked` : the slot of a PING holds only a PONG with its hash, and a bonded endpoint is one of the two;
* `bonded_endpoints_matched_iff` : each bonded endpoint has sent a matching PONG exactly if this is so of those that
  were answered.
-/

namespace DevP2P.Discv4
open DevP2P.Lib DevP2P.Rlp

def senderKey (env : Discv4Primitives) (sender : Endpoint) : Bytes :=
  endpointKey (env.addressToString sender.address) sender.port

/-- A PING was sent to the endpoint, and then a PONG with the hash of the PING was received from it. -/
def PongMatched (env : Discv4Primitives) (trace : List Event) (key : Bytes) : Prop :=
  ∃ packet ip port unixTime data sender pong,
    [Event.sent packet ip port, .received unixTime data sender].Sublist trace ∧
      Bytes.at packet kWirePacketTypeOffset = kPacketTypePing ∧ endpointKey ip port = key ∧ senderKey env sender = key ∧
      parsePong data = .ok pong ∧ pong.pingHash = .load 32 packet

/-- A PING of the sender was received, and the answer could be signed. -/
def Invited (env : Discv4Primitives) (config : Discv4Config) (trace : List Event) (sender : Endpoint) : Prop :=
  ∃ unixTime data, Event.received unixTime data sender ∈ trace ∧ kWireHeaderSize ≤ data.length ∧
    Bytes.at data kWirePacketTypeOffset = kPacketTypePing ∧
    ∃ packet, signPacket env config.privateKey (pongPayload sender.address sender.port config.tcpPort (.load 32 data)
      (BitVec.ofNat _ (unixTime + kPacketExpirySeconds))) = .ok packet

theorem PongMatched.mono {env : Discv4Primitives} {trace trace' : List Event} {key : Bytes}
    (h : PongMatched env trace key)
    (hsub : trace.Sublist trace') : PongMatched env trace' key := by
  obtain ⟨packet, ip, port, unixTime, data, sender, pong, hpair, hrest⟩ := h
  exact ⟨packet, ip, port, unixTime, data, sender, pong, hpair.trans hsub, hrest⟩

theorem Invited.mono {env : Discv4Primitives} {config : Discv4Config} {trace trace' : List Event} {sender : Endpoint}
    (h : Invited env config trace sender) (hsub : trace ⊆ trace') : Invited env config trace' sender := by
  obtain ⟨unixTime, data, hmem, hrest⟩ := h
  exact ⟨unixTime, data, hsub hmem, hrest⟩

theorem invited_append {env : Discv4Primitives} {config : Discv4Config} {trace events : List Event} {sender : Endpoint}
    (hevents : ∀ event ∈ events, event.isReceived = false) (h : Invited env config (trace ++ events) sender) :
    Invited env config trace sender := by
  obtain ⟨unixTime, data, hmem, hrest⟩ := h
  rcases List.mem_append.mp hmem with hold | hnew
  · exact ⟨unixTime, data, hold, hrest⟩
  · cases hevents _ hnew

/-! ## The packet of a PING -/

theorem at_signPacket {env : Discv4Primitives} {privateKey : FixedBytes 32} {ptype : UInt8} {rest packet : Bytes}
    (h : signPacket env privateKey (ptype :: rest) = .ok packet) : Bytes.at packet kWirePacketTypeOffset = ptype := by
  unfold signPacket at h
  rw [Outcome.rejectIf_bind_eq_ok, Outcome.bind_eq_ok] at h
  obtain ⟨-, sig, -, hpacket⟩ := h
  obtain rfl := Outcome.pure_eq_ok.mp hpacket
  have hlen : ∀ (hash : Hash) (sig : FixedBytes 64) (recid : UInt8),
      kWirePacketTypeOffset = (hash.bytes ++ (sig.bytes ++ [recid])).length + 0 := by
    intro hash sig recid
    simp [kWirePacketTypeOffset, kWireHashSize, kWireSigSize]
  rw [hlen, Bytes.at_append_right]
  rfl

theorem at_requestPacket {env : RequestPrimitives} {node : LocalNode} {config : Discv4Config} {input : HandlerInput}
    {ip packet : Bytes} {port : Uint16} (h : requestPacket env node config input .ping ip port = .ok packet) :
    Bytes.at packet kWirePacketTypeOffset = kPacketTypePing := by
  unfold requestPacket at h
  rw [Outcome.rejectIf_bind_eq_ok, Outcome.mapError_eq_ok] at h
  obtain ⟨hpayload, hsign⟩ := h
  unfold requestPayload rlpPayload at hpayload hsign
  dsimp only at hpayload hsign
  split at hsign
  · exact at_signPacket hsign
  · rename_i e he
    rw [he] at hpayload
    exact absurd rfl hpayload

namespace Discovery

variable {env : RequestPrimitives} {node : LocalNode} {config : Discv4Config} {d d' : Discovery}

/-! ## The invariant -/

/-- Slots hold only what their calls have asked for. -/
structure Tracked (env : RequestPrimitives) (config : Discv4Config) (d : Discovery) : Prop extends Numbered d where
  config_eq : d.client.config = config
  sent : ∀ call ∈ d.calls, call.kind = .ping →
    Event.sent call.packet call.ip call.port ∈ d.trace ∧ Bytes.at call.packet kWirePacketTypeOffset = kPacketTypePing
  slot : ∀ call ∈ d.calls, call.kind = .ping → ∀ pong, d.client.pongSlots.lookup call.id = some pong →
    PongMatched env.toDiscv4Primitives d.trace (endpointKey call.ip call.port)
  bonded : ∀ key ∈ d.client.bondedSet, PongMatched env.toDiscv4Primitives d.trace key ∨
    ∃ sender, Invited env.toDiscv4Primitives config d.trace sender ∧ key = senderKey env.toDiscv4Primitives sender
  invited : ∀ sender, Invited env.toDiscv4Primitives config d.trace sender →
    senderKey env.toDiscv4Primitives sender ∈ d.client.bondedSet

theorem tracked_init (env : RequestPrimitives) (config : Discv4Config) : Tracked env config (init config) := by
  refine ⟨numbered_init config, rfl, ?_, ?_, ?_, ?_⟩ <;> simp [init, calls, Invited]

theorem Tracked.bonded_mono (h : Tracked env config d) {trace : List Event} (hsub : d.trace.Sublist trace) {key : Bytes}
    (hkey : key ∈ d.client.bondedSet) : PongMatched env.toDiscv4Primitives trace key ∨
      ∃ sender, Invited env.toDiscv4Primitives config trace sender ∧ key = senderKey env.toDiscv4Primitives sender := by
  rcases h.bonded key hkey with hmatched | ⟨sender, hinvited, hkey⟩
  · exact .inl (hmatched.mono hsub)
  · exact .inr ⟨sender, hinvited.mono hsub.subset, hkey⟩

/-! ## The moves -/

theorem Tracked.quiet (h : Tracked env config d) (hquiet : Quiet d d') : Tracked env config d' := by
  obtain ⟨events, htrace, hevents⟩ := hquiet.trace
  have hsub : d.trace.Sublist d'.trace := htrace ▸ List.sublist_append_left _ _
  have hsame := hquiet.client
  refine ⟨h.toNumbered.same hsame hquiet.calls hquiet.nextId, hsame.config.trans h.config_eq, ?_, ?_, ?_, ?_⟩
  · rw [hquiet.calls]
    exact fun call hcall hkind => ⟨hsub.subset (h.sent call hcall hkind).1, (h.sent call hcall hkind).2⟩
  · rw [hquiet.calls, hsame.pongSlots]
    exact fun call hcall hkind pong hslot => (h.slot call hcall hkind pong hslot).mono hsub
  · rw [hsame.bondedSet]
    exact fun key hkey => h.bonded_mono hsub hkey
  · rw [hsame.bondedSet, htrace]
    exact fun sender hinvited => h.invited sender (invited_append hevents hinvited)

theorem Tracked.matched_of_result (h : Tracked env config d) {call : Call} (hcall : call ∈ d.calls) {pong : Discv4Pong}
    (hresult : .ok (.pong pong) = call.outcome d.client ∨ .ok (.pong pong) = call.sendFailed) :
    PongMatched env.toDiscv4Primitives d.trace (endpointKey call.ip call.port) := by
  have hslot := h.slot call hcall
  unfold Call.outcome Call.sendFailed at hresult
  cases hkind : call.kind with
  | ping =>
      simp only [hkind, reduceCtorEq, or_false] at hresult
      split at hresult
      · cases hresult
      · rename_i pong' hlookup
        exact hslot hkind pong' hlookup
  | enrRequest =>
      simp only [hkind, reduceCtorEq, or_false] at hresult
      split at hresult
      · cases hresult
      · split_ifs at hresult
        cases hresult
  | findNode targetId => simp [hkind] at hresult

theorem Tracked.complete (h : Tracked env config d) {k : Nat} {call : Call} {sending : Bool} {caller : Caller}
    {result : Except RequestError Reply} (hco : d.coroutines[k]? = some (.request call sending caller))
    (hresult : result = call.outcome d.client ∨ result = call.sendFailed) :
    Tracked env config (d.complete k call result) := by
  have hmove : Move env d (d.complete k call result) := .complete hco hresult
  have hcalls := (calls_sublist_of_move hmove).subset
  have htrace : (d.complete k call result).trace = d.trace ++ [.returned (some call.id) result] := rfl
  have hsub : d.trace.Sublist (d.complete k call result).trace := htrace ▸ List.sublist_append_left _ _
  refine ⟨h.toNumbered.move hmove, ?_, fun c hc hkind => ?_, fun c hc hkind pong hlookup => ?_, fun key hkey => ?_,
    fun sender hinvited => ?_⟩
  · rw [client_complete]
    exact h.config_eq
  · exact ⟨hsub.subset (h.sent c (hcalls hc) hkind).1, (h.sent c (hcalls hc) hkind).2⟩
  · rw [client_complete] at hlookup
    exact (h.slot c (hcalls hc) hkind pong hlookup).mono hsub
  · rw [client_complete] at hkey
    dsimp only at hkey
    split at hkey
    · rename_i pong
      rcases Finset.mem_insert.mp hkey with hnew | hold
      · rw [hnew]
        exact .inl ((h.matched_of_result (mem_calls d k call hco) hresult).mono hsub)
      · exact h.bonded_mono hsub hold
    · exact h.bonded_mono hsub hkey
  · have hold : senderKey env.toDiscv4Primitives sender ∈ d.client.bondedSet := by
      refine h.invited sender (invited_append ?_ (htrace ▸ hinvited))
      simp [Event.isReceived]
    rw [client_complete]
    dsimp only
    split
    · exact Finset.mem_insert_of_mem hold
    · exact hold

theorem Tracked.stop (h : Tracked env config d) : Tracked env config d.stop := by
  have hstop : Move env d d.stop := .stop
  exact ⟨h.toNumbered.move hstop, h.config_eq, h.sent, h.slot, h.bonded, h.invited⟩

theorem Tracked.matched_of_received (h : Tracked env config d) (unixTime : Nat) {data : Bytes} {sender : Endpoint}
    {pong : Discv4Pong}
    {entry : PendingReply} (hparse : parsePong data = .ok pong)
    (hentry : pendingReply env.toDiscv4Primitives sender kPacketTypePong d.client = some entry)
    (htoken : pong.pingHash = entry.expectedHash) {call : Call} (hcall : call ∈ d.calls) (hkind : call.kind = .ping)
    (hslot : entry.pong = some call.id) :
    PongMatched env.toDiscv4Primitives (d.trace ++ [.received unixTime data sender])
      (endpointKey call.ip call.port) := by
  obtain ⟨hkey, hown⟩ := h.owned_of_pong hentry hcall hslot
  obtain ⟨hsent, htype⟩ := h.sent call hcall hkind
  have hhash : entry.expectedHash = call.sentHash := by rw [hown, entry_of_ping hkind]
  rw [Call.key, hkind] at hkey
  refine ⟨call.packet, call.ip, call.port, unixTime, data, sender, pong, ?_, htype, rfl, ?_, hparse, htoken.trans hhash⟩
  · exact (List.singleton_sublist.mpr hsent).append (List.Sublist.refl [_])
  · exact List.append_cancel_right (List.append_cancel_right hkey)

theorem Tracked.receive (h : Tracked env config d) (input : HandlerInput) (data : Bytes) (sender : Endpoint)
    (hrunning : d.client.running = true) : Tracked env config (d.receive env input data sender) := by
  have hnumbered : Numbered (d.receive env input data sender) := h.toNumbered.receive input data sender hrunning
  unfold Discovery.receive at hnumbered ⊢
  rw [if_pos hrunning] at hnumbered ⊢
  obtain ⟨hconfig, -, -, hbonded⟩ := handlePacket_keeps env.toDiscv4Primitives input data sender d.client
  have hcases := handlePacket_cases env.toDiscv4Primitives input data sender d.client
  have hping := handlePacket_of_ping env.toDiscv4Primitives input data sender d.client
  have hsub : d.trace.Sublist (d.trace ++ [.received input.unixTime data sender]) := List.sublist_append_left _ _
  generalize Stateful.finalState (handlePacket env.toDiscv4Primitives input data sender d.client) = c' at *
  refine ⟨hnumbered, hconfig.trans h.config_eq, fun call hcall hkind => ?_, fun call hcall hkind pong hlookup => ?_,
    fun key hkey => ?_, fun other hinvited => ?_⟩
  · exact ⟨hsub.subset (h.sent call hcall hkind).1, (h.sent call hcall hkind).2⟩
  · have hold : d.client.pongSlots.lookup call.id = some pong → _ :=
      fun hold => (h.slot call hcall hkind pong hold).mono hsub
    rcases hcases with hsame | hbonds | ⟨pong', entry, slot, hparse, hentry, htoken, hslot, rfl⟩ | henr
    · exact hold (hsame.pongSlots ▸ hlookup)
    · obtain ⟨packet, rfl⟩ := hbonds.eq
      exact hold hlookup
    · by_cases hid : call.id = slot
      · exact h.matched_of_received input.unixTime hparse hentry htoken hcall hkind (hid ▸ hslot)
      · exact hold ((Finmap.lookup_insert_of_ne _ hid).symm.trans hlookup)
    · obtain ⟨response, entry, slot, -, -, -, -, rfl⟩ := henr
      exact hold hlookup
  · rcases hcases with hsame | hbonds | hpong | henr
    · exact h.bonded_mono hsub (hsame.bondedSet ▸ hkey)
    · obtain ⟨packet, rfl⟩ := hbonds.eq
      rcases Finset.mem_insert.mp hkey with hnew | hold
      · obtain ⟨answer, hsigned⟩ := hbonds.signed
        rw [h.config_eq] at hsigned
        exact .inr ⟨sender, ⟨input.unixTime, data, by simp [emit], hbonds.length, hbonds.packetType, answer, hsigned⟩,
          hnew⟩
      · exact h.bonded_mono hsub hold
    · obtain ⟨pong, entry, slot, -, -, -, -, rfl⟩ := hpong
      exact h.bonded_mono hsub hkey
    · obtain ⟨response, entry, slot, -, -, -, -, rfl⟩ := henr
      exact h.bonded_mono hsub hkey
  · obtain ⟨unixTime, data', hmem, hlen, htype, answer, hsigned⟩ := hinvited
    rcases List.mem_append.mp hmem with hold | hnew
    · exact hbonded (h.invited other ⟨unixTime, data', hold, hlen, htype, answer, hsigned⟩)
    · cases List.mem_singleton.mp hnew
      exact hping hlen htype ⟨answer, h.config_eq ▸ hsigned⟩

theorem Tracked.launch (h : Tracked env config d) (hlaunch : Launches env node d d') : Tracked env config d' := by
  have hnumbered := h.toNumbered.launch hlaunch
  obtain ⟨input, kind, ip, port, caller, packet, hpacket, rfl⟩ := hlaunch
  have hsub : d.trace.Sublist (d.launch env kind ip port caller packet).trace := by
    rw [trace_launch]
    split_ifs
    · exact List.sublist_append_left _ _
    · exact List.Sublist.refl _
  refine ⟨hnumbered, ?_, fun call hcall hkind => ?_, fun call hcall hkind pong hlookup => ?_, fun key hkey => ?_,
    fun sender hinvited => ?_⟩
  · rw [client_launch]
    exact h.config_eq
  · rcases mem_calls_launch hcall with hold | ⟨rfl, haddress⟩
    · exact ⟨hsub.subset (h.sent call hold hkind).1, (h.sent call hold hkind).2⟩
    · dsimp only at hkind
      subst hkind
      refine ⟨?_, at_requestPacket hpacket⟩
      rw [trace_launch, if_pos haddress]
      exact List.mem_append_right _ (List.mem_singleton_self _)
  · rw [client_launch] at hlookup
    rcases mem_calls_launch hcall with hold | ⟨rfl, -⟩
    · exact (h.slot call hold hkind pong hlookup).mono hsub
    · exact absurd (h.pongSlot_lt _ pong hlookup) (lt_irrefl _)
  · rw [client_launch] at hkey
    exact h.bonded_mono hsub hkey
  · rw [trace_launch] at hinvited
    rw [client_launch]
    split_ifs at hinvited
    · exact h.invited sender (invited_append (by simp [Event.isReceived]) hinvited)
    · exact h.invited sender hinvited

theorem Tracked.move (h : Tracked env config d) (hmove : Move env d d') : Tracked env config d' := by
  cases hmove with
  | quiet hquiet => exact h.quiet hquiet
  | complete hco hresult => exact h.complete hco hresult
  | receive input data sender hrunning => exact h.receive input data sender hrunning
  | stop => exact h.stop

/-- **Bonding.** After any calls and packets, each bonded endpoint was sent a PING and has then sent a PONG with its
hash, exactly if this holds of each endpoint whose PING was answered. -/
theorem bonded_endpoints_matched_iff (env : RequestPrimitives) (node : LocalNode) (config : Discv4Config)
    (actions : List (HandlerInput × DiscoveryAction)) :
    let d := run env node config actions
    (∀ key ∈ d.client.bondedSet, PongMatched env.toDiscv4Primitives d.trace key) ↔
      ∀ sender, Invited env.toDiscv4Primitives config d.trace sender →
        PongMatched env.toDiscv4Primitives d.trace (senderKey env.toDiscv4Primitives sender) := by
  intro d
  have htracked : Tracked env config d :=
    run_invariant (tracked_init env config) (fun hmove h => h.move hmove) (fun hlaunch h => h.launch hlaunch) actions
  constructor
  · intro hmatched sender hinvited
    exact hmatched _ (htracked.invited sender hinvited)
  · intro hmatched key hkey
    rcases htracked.bonded key hkey with hpong | ⟨sender, hinvited, rfl⟩
    · exact hpong
    · exact hmatched sender hinvited

/-! ## A PING nobody has asked for -/

/-- A byte as inet_pton reads it: without leading zeros. -/
def readOctet (text : Bytes) : Option UInt8 :=
  let n := text.foldl (fun n digit => 10 * n + (digit.toNat - 0x30)) 0
  if n < 256 ∧ decimal n = text then some (UInt8.ofNat n) else none

def readAddress (text : Bytes) : Option IPv4 :=
  match (text.splitOn 0x2E).map readOctet with
  | [some a, some b, some c, some d] => some ⟨[a, b, c, d], rfl⟩
  | _ => none

def requestEnv : RequestPrimitives :=
  { curveEnv with makeAddressV4 := readAddress, isAddress := fun text => (readAddress text).isSome }

def sampleNode : LocalNode := ⟨ascii ['0', '.', '0', '.', '0', '.', '0'], 30303, .zero 64⟩

def sampleConfig : Discv4Config := ⟨30303, .load _ (beStore 32 1)⟩

def samplePeer : Endpoint := ⟨FixedBytes.load _ [10, 0, 0, 1], 30303⟩

/-- After one PING that nobody has asked for, its sender is bonded; nothing was sent, and no PONG was received. -/
theorem unsolicited_ping_bonds :
    let d := run requestEnv sampleNode sampleConfig [(⟨0, fun _ => 0⟩, .receive forgedPing samplePeer)]
    senderKey curveEnv samplePeer ∈ d.client.bondedSet ∧ d.trace = [.received 0 forgedPing samplePeer] := by
  decide +kernel

end Discovery

end DevP2P.Discv4
