import DevP2P.Discv4.StolenReplies

/-!
# What a PING returns

Whether the slot of a PING was filled is read off the expiration in it, and this is the expiration on the wire cut to 32
bits.

* `wireExpiration` : the expiration that a PONG carries; `wireExpiration_of_parse` : what the parser makes of it;
* `accepted` : the PONGs that a call has received; `pingsTo` : the PINGs that wait for one endpoint;
* `ping_returns_iff` : when a PING returns its PONG, and with the expiration on the wire.
-/

namespace DevP2P.Discv4
open DevP2P.Lib DevP2P.Rlp Stateful

/-! ## The expiration on the wire -/

def readExpiration : DecodeM Uint64 := do
  let _ ← openList
  let _ ← openList
  let _ ← readArray 4
  let _ ← readUInt .uint16
  let _ ← readUInt .uint16
  let _ ← readArray 32
  readUInt .uint64

def wireExpiration (data : Bytes) : Option Uint64 :=
  (Stateful.outcome (readExpiration ⟨data.drop kWireHeaderSize⟩)).toOption

theorem wireExpiration_of_parse {data : Bytes} {pong : Discv4Pong} (h : parsePong data = .ok pong) :
    ∃ v, wireExpiration data = some v ∧ pong.expiration.toNat = v.toNat % 2 ^ 32 := by
  unfold parsePong at h
  rw [Outcome.rejectIf_bind_eq_ok, Outcome.rejectIf_bind_eq_ok, outcome_eq_ok] at h
  obtain ⟨-, -, d, hread⟩ := h
  unfold readPong at hread
  obtain ⟨_, d₁, houter, hread⟩ := bind_eq_ok.mp hread
  obtain ⟨_, d₂, hendpoint, hread⟩ := bind_eq_ok.mp hread
  obtain ⟨_, d₃, hip, hread⟩ := bind_eq_ok.mp hread
  obtain ⟨_, d₄, hudp, hread⟩ := bind_eq_ok.mp hread
  obtain ⟨_, d₅, htcp, hread⟩ := bind_eq_ok.mp hread
  obtain ⟨_, d₆, hhash, hread⟩ := bind_eq_ok.mp hread
  obtain ⟨v, d₇, hexpiration, hread⟩ := bind_eq_ok.mp hread
  rw [get_bind] at hread
  have hcut : pong.expiration = BitVec.ofNat _ v.toNat := by
    split_ifs at hread
    all_goals
      obtain ⟨_, d₈, -, hread⟩ := bind_eq_ok.mp hread
      dsimp only at hread
      rw [get_bind] at hread
      obtain ⟨_, d₉, -, hread⟩ := bind_eq_ok.mp hread
      obtain ⟨rfl, -⟩ := pure_eq_ok.mp hread
      rfl
  refine ⟨v, ?_, hcut ▸ BitVec.toNat_ofNat _ _⟩
  unfold wireExpiration readExpiration
  rw [bind_of_ok houter, bind_of_ok hendpoint, bind_of_ok hip, bind_of_ok hudp,
    bind_of_ok htcp, bind_of_ok hhash, hexpiration]
  rfl

/-! ## The PONGs of a call -/

def acceptedPacket (env : Discv4Primitives) (call : Call) : Event → Option Bytes
  | .received _ data sender => (call.replyIn env data sender).map fun _ => data
  | _ => none

def accepted (env : Discv4Primitives) (call : Call) (events : List Event) : List Bytes :=
  events.filterMap (acceptedPacket env call)

theorem map_some_replies {env : Discv4Primitives} {call : Call} (hkind : call.kind = .ping) (events : List Event) :
    (replies env call events).map some =
      (accepted env call events).map fun data => (parsePong data).toOption.map Reply.pong := by
  unfold replies accepted
  rw [List.map_filterMap, List.map_filterMap]
  apply List.filterMap_congr
  intro event _
  cases event with
  | received t data sender =>
      show (call.replyIn env data sender).map some = ((call.replyIn env data sender).map fun _ => data).map _
      cases hreply : call.replyIn env data sender with
      | none => rfl
      | some reply =>
          obtain ⟨-, ⟨-, pong, hparse, -, rfl⟩ | ⟨henr, -⟩⟩ := replyIn_eq_some_iff.mp hreply
          · rw [Option.map_some, Option.map_some, Option.map_some, hparse]
            rfl
          · rw [hkind] at henr
            cases henr
  | _ => rfl

namespace Discovery

variable {env : RequestPrimitives} {node : LocalNode} {config : Discv4Config} {d : Discovery} {call : Call}

def pingsTo (ip : Bytes) (port : Uint16) (d : Discovery) : List Call :=
  d.calls.filter fun call => call.kind = .ping ∧ call.ip = ip ∧ call.port = port

theorem key_eq_iff_of_ping (hkind : call.kind = .ping) (other : Call) :
    other.key = call.key ↔ other.kind = .ping ∧ other.ip = call.ip ∧ other.port = call.port := by
  constructor
  · intro h
    obtain ⟨hip, hport, htype⟩ := replyKey_inj h
    refine ⟨?_, hip, hport⟩
    rw [hkind] at htype
    cases hother : other.kind with
    | ping => rfl
    | enrRequest =>
        rw [hother] at htype
        exact absurd htype (by decide)
    | findNode targetId =>
        rw [hother] at htype
        exact absurd htype (show kPacketTypeNeighbours ≠ kPacketTypePong by decide)
  · rintro ⟨hping, hip, hport⟩
    rw [Call.key, Call.key, hkind, hping, hip, hport]

theorem alone_of_pingsTo (hkind : call.kind = .ping) (h : d.pingsTo call.ip call.port = [call]) : Alone call d := by
  unfold Alone
  rw [← h]
  exact List.filter_congr fun other _ => by simp only [key_eq_iff_of_ping hkind]

theorem awaits_run {before during : List (HandlerInput × DiscoveryAction)} {launching : HandlerInput × DiscoveryAction}
    (hkind : call.kind = .ping) (hnew : call ∉ (run env node config before).calls)
    (halone : ∀ waited, waited <+: during →
      (run env node config (before ++ launching :: waited)).pingsTo call.ip call.port = [call]) :
    Awaits env call (run env node config (before ++ [launching])).trace none
      (run env node config (before ++ launching :: during)) := by
  have happend (waited : List (HandlerInput × DiscoveryAction)) :
      before ++ launching :: waited = before ++ [launching] ++ waited := by
    simp
  have hwaits (waited : List (HandlerInput × DiscoveryAction)) (h : waited <+: during) :
      Alone call (run env node config (before ++ [launching] ++ waited)) :=
    alone_of_pingsTo hkind (happend waited ▸ halone waited h)
  have hfirst := hwaits [] (List.nil_prefix)
  rw [List.append_nil, run_concat] at hfirst
  have hstart := awaits_of_new (numbered_run _) (reaches_step _ launching) hnew hfirst
  rw [← run_concat] at hstart
  rw [happend during]
  exact hstart.run (fun waited h _ => hwaits waited h) (hwaits during (List.prefix_refl _)).mem

/-! ## What the call returns -/

/-- The call has returned a PONG if it has received one, and only then; and the expiration of it is the one on the
wire. -/
def PingExact (env : Discv4Primitives) (call : Call) (events : List Event) (result : Except RequestError Reply) :
    Prop :=
  ((∃ pong, result = .ok (.pong pong)) ↔ accepted env call events ≠ []) ∧
    ∀ pong, result = .ok (.pong pong) → ∃ data v, (accepted env call events).getLast? = some data ∧
      parsePong data = .ok pong ∧
      wireExpiration data = some v ∧ pong.expiration.toNat = v.toNat

/-- The expiration of the last PONG is not zero and has 32 bits. -/
def ExpirationKept (env : Discv4Primitives) (call : Call) (events : List Event) : Prop :=
  ∀ data v, (accepted env call events).getLast? = some data → wireExpiration data = some v → v.toNat ≠ 0 ∧
    v.toNat < 2 ^ 32

theorem pingExact_iff {env : Discv4Primitives} {events : List Event} {c : Discv4Client} (hkind : call.kind = .ping)
    (hslot : call.slot c = lastReply env call events none) :
    PingExact env call events (call.outcome c) ↔ ExpirationKept env call events := by
  have hreply := congrArg List.getLast? (@map_some_replies env _ hkind events)
  rw [List.getLast?_map, List.getLast?_map] at hreply
  rw [lastReply, Option.or_none] at hslot
  unfold PingExact ExpirationKept
  cases hlast : (accepted env call events).getLast? with
  | none =>
      have hnone : accepted env call events = [] := List.getLast?_eq_none_iff.mp hlast
      rw [hlast, Option.map_none, Option.map_eq_none_iff] at hreply
      have hempty : c.pongSlots.lookup call.id = none := by
        rw [hreply, Call.slot, hkind] at hslot
        exact Option.map_eq_none_iff.mp hslot
      have hresult : call.outcome c = .error .kPongTimeout := by simp only [Call.outcome, hkind, hempty]
      simp [hresult, hnone]
  | some data =>
      rw [hlast, Option.map_some, Option.map_eq_some_iff] at hreply
      obtain ⟨_, hreply, heq⟩ := hreply
      obtain ⟨pong, hpong, rfl⟩ := Option.map_eq_some_iff.mp heq.symm
      have hparse : parsePong data = .ok pong := by
        cases h : parsePong data with
        | ok pong' => rw [h] at hpong; exact congrArg _ (Option.some.inj hpong)
        | error e => rw [h] at hpong; cases hpong
      obtain ⟨v, hwire, hcut⟩ := wireExpiration_of_parse hparse
      have hne : accepted env call events ≠ [] := by
        intro hnil
        rw [hnil] at hlast
        cases hlast
      have hresult : call.outcome c = if pong.expiration ≠ 0 then .ok (.pong pong) else .error .kPongTimeout := by
        rw [outcome_of_slot (hslot.trans hreply)]
        simp [Reply.usable]
      have hzero : pong.expiration = 0 ↔ v.toNat % 2 ^ 32 = 0 := by
        rw [← hcut, ← BitVec.toNat_inj]
        rfl
      rw [hresult]
      constructor
      · rintro ⟨hsuccess, hexact⟩ _ _ ⟨⟩ hv
        cases hwire.symm.trans hv
        obtain ⟨pong', hpong'⟩ := hsuccess.mpr hne
        split_ifs at hpong' with hexpiration
        obtain ⟨_, _, ⟨⟩, -, hw, hsame⟩ := hexact pong (if_pos hexpiration)
        cases hwire.symm.trans hw
        have hnotZero := mt hzero.mpr hexpiration
        omega
      · intro h
        obtain ⟨hnotZero, hlt⟩ := h data v rfl hwire
        rw [if_pos (mt hzero.mp (by omega))]
        refine ⟨⟨fun _ => hne, fun _ => ⟨pong, rfl⟩⟩, ?_⟩
        rintro _ ⟨⟩
        exact ⟨data, v, rfl, hparse, hwire, by omega⟩

/-- **When a PING returns its PONG.** A call whose packet was sent waits alone for its endpoint, from its launch until
its wait ends. Then it returns: a PONG exactly if it has received one, and with the expiration on the wire, exactly when
it has received none or the last one carries an expiration that is not zero and has 32 bits. -/
theorem ping_returns_iff (env : RequestPrimitives) (node : LocalNode) (config : Discv4Config)
    (before during : List (HandlerInput × DiscoveryAction)) (launching : HandlerInput × DiscoveryAction) {call : Call}
    (hkind : call.kind = .ping) (hnew : call ∉ (run env node config before).calls)
    (halone : ∀ waited, waited <+: during →
      (run env node config (before ++ launching :: waited)).pingsTo call.ip call.port = [call])
    (hlive : (run env node config (before ++ launching :: during)).terminated = false) {k : Nat} {caller : Caller}
    (hsent : (run env node config (before ++ launching :: during)).coroutines[k]? = some (.request call false caller))
    (input : HandlerInput) :
    let d := run env node config (before ++ launching :: during)
    let received := d.trace.drop (run env node config (before ++ [launching])).trace.length
    ∃ result, d.Returns env node (input, .waitReturns k) call result ∧
      (PingExact env.toDiscv4Primitives call received result ↔
        ExpirationKept env.toDiscv4Primitives call received) := by
  obtain ⟨events, htrace, hslot⟩ := (awaits_run hkind hnew halone).slot
  refine ⟨_, returns_outcome hlive hsent input, ?_⟩
  rw [htrace, List.drop_left]
  exact pingExact_iff hkind hslot

/-! ## A PONG with the expiration zero, and one with more than 32 bits -/

def pongWith (call : Call) (expiration : Uint64) : Bytes :=
  List.replicate (kWireHashSize + kWireSigSize) 0 ++ kPacketTypePong :: encodeList (encodeFields
    [.list (encodeFields [.string samplePeer.address.bytes, .number .uint16 samplePeer.port, .number .uint16 30303]),
      .string call.sentHash.bytes, .number .uint64 expiration])

def answeredWith (expiration : Uint64) : List (HandlerInput × DiscoveryAction) :=
  [(⟨0, fun _ => 0⟩, .sendReturns 0 true), (⟨1, fun _ => 0⟩,
    .receive (pongWith (samplePing 0 0) expiration) samplePeer)]

def pinging : HandlerInput × DiscoveryAction := (⟨0, fun _ => 0⟩, .ping (samplePing 0 0).ip (samplePing 0 0).port)

def answeredRun (expiration : Uint64) : Discovery :=
  run tailEnv sampleNode sampleConfig (pinging :: answeredWith expiration)

def endWait (d : Discovery) : Discovery := d.step tailEnv sampleNode (⟨1, fun _ => 0⟩, .waitReturns 0)

/-- A PONG that expires after a minute is returned. -/
theorem pong_is_returned :
    let d := answeredRun 60
    let pong : Discv4Pong := ⟨samplePeer.address, samplePeer.port, 30303, (samplePing 0 0).sentHash, 60, 0⟩
    d.Returns tailEnv sampleNode (⟨1, fun _ => 0⟩, .waitReturns 0) (samplePing 0 0) (.ok (.pong pong)) ∧
      PingExact tailEnv.toDiscv4Primitives (samplePing 0 0)
        (d.trace.drop (run tailEnv sampleNode sampleConfig [pinging]).trace.length) (.ok (.pong pong)) := by
  have halone : ∀ waited ∈ (answeredWith 60).inits,
      (run tailEnv sampleNode sampleConfig ([] ++ pinging :: waited)).pingsTo
      (samplePing 0 0).ip (samplePing 0 0).port = [samplePing 0 0] := by decide +kernel
  have hsent : (answeredRun 60).coroutines[0]? = some (.request (samplePing 0 0) false .outside) := by decide +kernel
  have htrace : (endWait (answeredRun 60)).trace = (answeredRun 60).trace ++ .returned (some (samplePing 0 0).id)
        (.ok (.pong ⟨samplePeer.address, samplePeer.port, 30303, (samplePing 0 0).sentHash, 60, 0⟩)) ::
          [] := by decide +kernel
  obtain ⟨result, hreturns, hiff⟩ := ping_returns_iff tailEnv sampleNode sampleConfig [] (answeredWith 60) pinging rfl
    (by decide +kernel) (fun waited h => halone waited ((List.mem_inits _ _).mpr h))
    (by decide +kernel) hsent ⟨1, fun _ => 0⟩
  obtain rfl := hreturns.eq ⟨[], htrace⟩
  refine ⟨hreturns, hiff.mpr ?_⟩
  have haccepted : accepted tailEnv.toDiscv4Primitives (samplePing 0 0)
      ((answeredRun 60).trace.drop (run tailEnv sampleNode sampleConfig [pinging]).trace.length) =
        [pongWith (samplePing 0 0) 60] := by
    decide +kernel
  have hwire : wireExpiration (pongWith (samplePing 0 0) 60) = some 60 := by decide +kernel
  intro data v hdata hv
  cases (congrArg List.getLast? haccepted).symm.trans hdata
  cases hwire.symm.trans hv
  decide

/-- **A PONG can be accepted and lost, or returned with another expiration.** -/
theorem accepted_pong_is_lost :
    ((answeredRun 0).pingsTo (samplePing 0 0).ip (samplePing 0 0).port = [samplePing 0 0] ∧
      accepted tailEnv.toDiscv4Primitives (samplePing 0 0) (answeredRun 0).trace = [pongWith (samplePing 0 0) 0] ∧
      (endWait (answeredRun 0)).trace = (answeredRun 0).trace ++ [.returned (some 0) (.error .kPongTimeout)]) ∧
    (accepted tailEnv.toDiscv4Primitives (samplePing 0 0) (answeredRun (2 ^ 32 + 60)).trace =
      [pongWith (samplePing 0 0) (2 ^ 32 + 60)] ∧
      wireExpiration (pongWith (samplePing 0 0) (2 ^ 32 + 60)) = some (2 ^ 32 + 60) ∧
      (endWait (answeredRun (2 ^ 32 + 60))).trace = (answeredRun (2 ^ 32 + 60)).trace ++ [.returned (some 0)
        (.ok (.pong ⟨samplePeer.address, samplePeer.port, 30303, (samplePing 0 0).sentHash, 60, 0⟩))]) := by
  decide +kernel

end Discovery

end DevP2P.Discv4
