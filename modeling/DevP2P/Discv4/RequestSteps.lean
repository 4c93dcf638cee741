import DevP2P.Discv4.Authentic
import DevP2P.Discv4.Requests
import Mathlib.Logic.Relation

/-!
# What a step of the client does

* `SameRequests` : nothing has changed that a call waits for; `handlePacket_cases` : all that a packet does;
* `calls` : the calls that wait;
* `Move` : a step of a coroutine that registers no entry: nothing that matters, the end of a call, a packet, `stop`;
* `Reaches` : moves, and then perhaps a call that registers its entry; `reaches_step` : a step does no more;
* `Numbered` : each timer and each slot belongs to a call.
-/

namespace DevP2P.Discv4
open DevP2P.Lib DevP2P.Rlp Stateful

/-! ## Packets -/

/-- The clients agree on all that calls read and write. -/
structure SameRequests (c c' : Discv4Client) : Prop where
  config : c'.config = c.config
  running : c'.running = c.running
  pendingReplies : c'.pendingReplies = c.pendingReplies
  bondedSet : c'.bondedSet = c.bondedSet
  pongSlots : c'.pongSlots = c.pongSlots
  enrSlots : c'.enrSlots = c.enrSlots

theorem SameRequests.refl (c : Discv4Client) : SameRequests c c := ⟨rfl, rfl, rfl, rfl, rfl, rfl⟩

theorem SameRequests.trans {c c' c'' : Discv4Client} (h : SameRequests c c') (h' : SameRequests c' c'') :
    SameRequests c c'' :=
  ⟨h'.config.trans h.config, h'.running.trans h.running, h'.pendingReplies.trans h.pendingReplies,
    h'.bondedSet.trans h.bondedSet, h'.pongSlots.trans h.pongSlots, h'.enrSlots.trans h.enrSlots⟩

theorem sameRequests_recordNode (lastSeen : Nat) (node : NodeEntry) (c : Discv4Client) :
    SameRequests c (recordNode lastSeen node c) := by
  unfold recordNode
  dsimp only
  split_ifs <;> exact ⟨rfl, rfl, rfl, rfl, rfl, rfl⟩

theorem sameRequests_neighboursLoop (input : HandlerInput) (nodesStart nodesLen fuel i : Nat) (d : RlpDecoder)
    (c : Discv4Client) :
    SameRequests c (neighboursLoop input nodesStart nodesLen fuel i d c) := by
  induction fuel generalizing i d c with
  | zero => exact .refl c
  | succ fuel ih =>
      unfold neighboursLoop
      split_ifs
      · exact .refl c
      · cases readNode d with
        | error e d' => exact .refl c
        | ok node d' => exact (sameRequests_recordNode _ node c).trans (ih _ _ _)

section Packets

variable (env : Discv4Primitives) (input : HandlerInput) (data : Bytes) (sender : Endpoint) (c : Discv4Client)

theorem sameRequests_handleNeighbours : SameRequests c (finalState (handleNeighbours env input data sender c)) := by
  unfold handleNeighbours
  by_cases hlen : data.length < kWireHeaderSize
  · rw [rejectIf_bind_of hlen]
    exact .refl c
  rw [rejectIf_bind_of_not hlen, get_bind]
  cases pendingReply env sender kPacketTypeNeighbours c with
  | none =>
      rw [Outcome.unwrap_none, bind_of_error (orReturn_error () c)]
      exact .refl c
  | some entry =>
      rw [Outcome.unwrap_some, bind_of_ok (orReturn_ok entry c)]
      unfold cancel
      rw [bind_of_ok (modify_apply _ c)]
      have hcancel : SameRequests c { c with cancelled := c.cancelled ++ [entry.timer] } :=
        ⟨rfl, rfl, rfl, rfl, rfl, rfl⟩
      cases readNodes ⟨data.drop kWireHeaderSize⟩ with
      | error e d => exact hcancel
      | ok nodesLen d => exact hcancel.trans (sameRequests_neighboursLoop input _ _ _ _ _ _)

/-- The sender of a PING is bonded. -/
structure Bonds (c' : Discv4Client) : Prop where
  length : kWireHeaderSize ≤ data.length
  packetType : Bytes.at data kWirePacketTypeOffset = kPacketTypePing
  signed : AnswerSigned env input data sender c
  eq : ∃ packet, c' =
    { c with
      bondedSet := insert (endpointKey (env.addressToString sender.address) sender.port) c.bondedSet
      tasks := c.tasks ++ [.answerPing (env.addressToString sender.address) sender.port packet] }

def FillsPong (c' : Discv4Client) : Prop :=
  ∃ pong entry slot, parsePong data = .ok pong ∧ pendingReply env sender kPacketTypePong c = some entry ∧
    pong.pingHash = entry.expectedHash ∧ entry.pong = some slot ∧
    c' = { storePong slot pong c with cancelled := c.cancelled ++ [entry.timer] }

def FillsEnr (c' : Discv4Client) : Prop :=
  ∃ response entry slot, parseEnrResponse data = .ok response ∧
    pendingReply env sender kPacketTypeEnrResponse c = some entry ∧
    response.requestHash = entry.expectedHash ∧ entry.enrResponse = some slot ∧
    c' = { storeEnrResponse slot response c with cancelled := c.cancelled ++ [entry.timer] }

theorem handlePacket_cases :
    let c' := finalState (handlePacket env input data sender c)
    SameRequests c c' ∨ Bonds env input data sender c c' ∨ FillsPong env data sender c c' ∨
      FillsEnr env data sender c c' := by
  dsimp only
  unfold handlePacket
  by_cases hlen : kWireHeaderSize ≤ data.length
  · rw [rejectIf_bind_of_not (by omega)]
    split_ifs with hping hpong hfind hneighbours hrequest henr
    · by_cases hsigned : AnswerSigned env input data sender c
      · exact .inr (.inl ⟨hlen, hping, hsigned, handlePing_of_signed env input sender c hlen hsigned⟩)
      · rw [handlePing_of_not_signed env input sender c hlen hsigned]
        exact .inl (.refl c)
    · by_cases hawaited : ReplyAwaited env data sender c kPacketTypePong parsePong Discv4Pong.pingHash PendingReply.pong
      · obtain ⟨pong, entry, slot, hparse, hentry, htoken, hslot⟩ := hawaited
        exact .inr (.inr (.inl ⟨pong, entry, slot, hparse, hentry, htoken, hslot,
          acceptReply_of_awaited env sender c hlen hparse hentry htoken hslot⟩))
      · exact .inl (by rw [handlePong, acceptReply_of_not_awaited env sender c hlen hawaited]; exact .refl c)
    · exact .inl (.refl c)
    · exact .inl (sameRequests_handleNeighbours env input data sender c)
    · exact .inl (.refl c)
    · by_cases hawaited : ReplyAwaited env data sender c kPacketTypeEnrResponse parseEnrResponse
        Discv4EnrResponse.requestHash
          PendingReply.enrResponse
      · obtain ⟨response, entry, slot, hparse, hentry, htoken, hslot⟩ := hawaited
        exact .inr (.inr (.inr ⟨response, entry, slot, hparse, hentry, htoken, hslot,
          acceptReply_of_awaited env sender c hlen hparse hentry htoken hslot⟩))
      · exact .inl (by rw [handleEnrResponse, acceptReply_of_not_awaited env sender c hlen hawaited]; exact .refl c)
    · exact .inl (.refl c)
  · rw [rejectIf_bind_of (by omega)]
    exact .inl (.refl c)

theorem handlePacket_keeps :
    let c' := finalState (handlePacket env input data sender c)
    c'.config = c.config ∧ c'.running = c.running ∧ c'.pendingReplies = c.pendingReplies ∧
      c.bondedSet ⊆ c'.bondedSet := by
  dsimp only
  rcases handlePacket_cases env input data sender c with hsame | hbonds | hpong | henr
  · exact ⟨hsame.config, hsame.running, hsame.pendingReplies, hsame.bondedSet ▸ subset_rfl⟩
  · obtain ⟨packet, heq⟩ := hbonds.eq
    rw [heq]
    exact ⟨rfl, rfl, rfl, Finset.subset_insert _ _⟩
  · obtain ⟨pong, entry, slot, -, -, -, -, heq⟩ := hpong
    rw [heq]
    exact ⟨rfl, rfl, rfl, subset_rfl⟩
  · obtain ⟨response, entry, slot, -, -, -, -, heq⟩ := henr
    rw [heq]
    exact ⟨rfl, rfl, rfl, subset_rfl⟩

theorem handlePacket_of_ping (hlen : kWireHeaderSize ≤ data.length)
    (htype : Bytes.at data kWirePacketTypeOffset = kPacketTypePing)
    (hsigned : AnswerSigned env input data sender c) :
    endpointKey (env.addressToString sender.address) sender.port ∈
      (finalState (handlePacket env input data sender c)).bondedSet := by
  unfold handlePacket
  rw [rejectIf_bind_of_not (by omega), if_pos htype]
  obtain ⟨packet, heq⟩ := handlePing_of_signed env input sender c hlen hsigned
  rw [heq]
  exact Finset.mem_insert_self _ _

end Packets

/-! ## The calls that wait -/

def Coroutine.call? : Coroutine → Option Call
  | .answering _ _ => none
  | .request call _ _ => some call

def Event.isReceived : Event → Bool
  | .received _ _ _ => true
  | _ => false

namespace Discovery

def calls (d : Discovery) : List Call := d.coroutines.filterMap Coroutine.call?

theorem calls_eraseIdx {d : Discovery} {k : Nat} {co : Coroutine} (h : d.coroutines[k]? = some co) :
    ∃ before after, d.calls = before ++ co.call?.toList ++ after ∧
      (d.coroutines.eraseIdx k).filterMap Coroutine.call? = before ++ after := by
  obtain ⟨hk, rfl⟩ := List.getElem?_eq_some_iff.mp h
  refine ⟨(d.coroutines.take k).filterMap Coroutine.call?, (d.coroutines.drop (k + 1)).filterMap Coroutine.call?, ?_,
    ?_⟩
  · have hsplit := List.take_append_drop k d.coroutines
    rw [List.drop_eq_getElem_cons hk] at hsplit
    rw [calls]
    nth_rewrite 1 [← hsplit]
    rw [List.filterMap_append, List.filterMap_cons, List.append_assoc]
    cases d.coroutines[k].call? <;> rfl
  · rw [List.eraseIdx_eq_take_drop_succ, List.filterMap_append]

theorem calls_set {d : Discovery} {k : Nat} {co co' : Coroutine} (h : d.coroutines[k]? = some co)
    (hsame : co'.call? = co.call?) :
    (d.coroutines.set k co').filterMap Coroutine.call? = d.calls := by
  obtain ⟨hk, rfl⟩ := List.getElem?_eq_some_iff.mp h
  have hsplit := List.take_append_drop k d.coroutines
  rw [List.drop_eq_getElem_cons hk] at hsplit
  rw [List.set_eq_take_append_cons_drop, if_pos hk, calls]
  nth_rewrite 3 [← hsplit]
  rw [List.filterMap_append, List.filterMap_append, List.filterMap_cons, List.filterMap_cons, hsame]

/-! ## Fields -/

section Fields

variable (env : RequestPrimitives) (d : Discovery) (k : Nat) (call : Call) (result : Except RequestError Reply)

theorem calls_complete {sending : Bool} {caller : Caller} (h : d.coroutines[k]? = some (.request call sending caller)) :
    ∃ before after, d.calls = before ++ call :: after ∧ (d.complete k call result).calls = before ++ after := by
  obtain ⟨before, after, hbefore, hafter⟩ := calls_eraseIdx h
  refine ⟨before, after, ?_, hafter⟩
  rw [hbefore, List.append_assoc]
  rfl

theorem mem_calls {sending : Bool} {caller : Caller} (h : d.coroutines[k]? = some (.request call sending caller)) :
    call ∈ d.calls := List.mem_filterMap.mpr ⟨_, List.mem_of_getElem? h, rfl⟩

theorem exists_of_mem_calls {d : Discovery} {call : Call} (h : call ∈ d.calls) :
    ∃ (k : Nat) (sending : Bool) (caller : Caller), d.coroutines[k]? = some (.request call sending caller) := by
  obtain ⟨co, hmem, hcall⟩ := List.mem_filterMap.mp h
  obtain ⟨k, hk⟩ := List.mem_iff_getElem?.mp hmem
  cases co with
  | answering ip port => cases hcall
  | request call' sending caller =>
      cases hcall
      exact ⟨k, sending, caller, hk⟩

theorem client_complete : (d.complete k call result).client =
    { d.client with
      pendingReplies := d.client.pendingReplies.erase call.key
      bondedSet := match result with
        | .ok (.pong _) => insert (endpointKey call.ip call.port) d.client.bondedSet
        | _ => d.client.bondedSet } := by
  rcases result with e | (pong | response | _) <;> rfl

variable (kind : RequestKind) (ip : Bytes) (port : Uint16) (caller : Caller) (packet : Bytes)

theorem client_launch : (d.launch env kind ip port caller packet).client =
    { d.client with
      pendingReplies := d.client.pendingReplies.insert (replyKey ip port kind.replyType)
        (Call.entry ⟨kind, ip, port, d.nextId, packet⟩) } := by
  unfold launch emit
  dsimp only
  split_ifs <;> rfl

theorem nextId_launch : (d.launch env kind ip port caller packet).nextId = d.nextId + 1 := by
  unfold launch emit
  dsimp only
  split_ifs <;> rfl

theorem calls_launch : (d.launch env kind ip port caller packet).calls =
    if env.isAddress ip then d.calls ++ [⟨kind, ip, port, d.nextId, packet⟩] else d.calls := by
  unfold launch emit
  dsimp only
  split_ifs
  · exact List.filterMap_append
  · rfl

variable {env d kind ip port caller packet} in
theorem mem_calls_launch {call : Call} (h : call ∈ (d.launch env kind ip port caller packet).calls) :
    call ∈ d.calls ∨ call = ⟨kind, ip, port, d.nextId, packet⟩ ∧ env.isAddress ip = true := by
  rw [calls_launch] at h
  split_ifs at h with haddress
  · rcases List.mem_append.mp h with hold | hnew
    · exact .inl hold
    · exact .inr ⟨List.mem_singleton.mp hnew, haddress⟩
  · exact .inl h

theorem trace_launch : (d.launch env kind ip port caller packet).trace =
    if env.isAddress ip then d.trace ++ [.sent packet ip port] else d.trace := by
  unfold launch emit
  dsimp only
  split_ifs <;> rfl

end Fields

/-! ## Moves -/

/-- Nothing has happened that concerns a call. -/
structure Quiet (d d' : Discovery) : Prop where
  client : SameRequests d.client d'.client
  calls : d'.calls = d.calls
  nextId : d'.nextId = d.nextId
  trace : ∃ events, d'.trace = d.trace ++ events ∧ ∀ event ∈ events, event.isReceived = false

theorem quiet_of_calls {d d' : Discovery} (hclient : SameRequests d.client d'.client) (hcalls : d'.calls = d.calls)
    (hnextId : d'.nextId = d.nextId) (htrace : d'.trace = d.trace) : Quiet d d' :=
  ⟨hclient, hcalls, hnextId, [], by simpa using htrace, by simp⟩

theorem quiet_emit {event : Event} (h : event.isReceived = false) (d : Discovery) : Quiet d (d.emit event) :=
  ⟨.refl _, rfl, rfl, [event], rfl, by simpa using h⟩

variable (env : RequestPrimitives) (node : LocalNode)

/-- A step that registers no entry. -/
inductive Move : Discovery → Discovery → Prop
  | quiet {d d' : Discovery} : Quiet d d' → Move d d'
  | complete {d : Discovery} {k : Nat} {call : Call} {sending : Bool} {caller : Caller}
    {result : Except RequestError Reply} :
      d.coroutines[k]? = some (.request call sending caller) → result = call.outcome d.client ∨
        result = call.sendFailed →
      Move d (d.complete k call result)
  | receive {d : Discovery} (input : HandlerInput) (data : Bytes) (sender : Endpoint) :
      d.client.running = true → Move d (d.receive env input data sender)
  | stop {d : Discovery} : Move d d.stop

/-- A call has its packet and registers its entry. -/
def Launches (d d' : Discovery) : Prop :=
  ∃ input kind ip port caller packet, requestPacket env node d.client.config input kind ip port = .ok packet ∧
    d' = d.launch env kind ip port caller packet

/-- Moves, and then perhaps a call that registers its entry. -/
def Reaches (d d' : Discovery) : Prop :=
  ∃ d₁, Relation.ReflTransGen (Move env) d d₁ ∧ (d' = d₁ ∨ Launches env node d₁ d')

section Reaches

variable {env node} {input : HandlerInput} {d d' d'' : Discovery}

theorem calls_sublist_of_move (h : Move env d d') : d'.calls.Sublist d.calls := by
  cases h with
  | quiet hquiet => rw [hquiet.calls]
  | complete hco _ =>
      obtain ⟨before, after, hbefore, hafter⟩ := calls_complete _ _ _ _ hco
      rw [hbefore, hafter]
      exact (List.sublist_cons_self _ _).append_left _
  | receive input data sender hrunning =>
      unfold receive
      rw [if_pos hrunning]
      exact List.Sublist.refl _
  | stop => exact List.Sublist.refl _

theorem Reaches.refl (d : Discovery) : Reaches env node d d := ⟨d, .refl, .inl rfl⟩

theorem Reaches.head (hmove : Move env d d') (h : Reaches env node d' d'') : Reaches env node d d'' := by
  obtain ⟨d₁, hmoves, hlast⟩ := h
  exact ⟨d₁, .head hmove hmoves, hlast⟩

theorem Reaches.of_move (hmove : Move env d d') : Reaches env node d d' := .head hmove (.refl d')

theorem Reaches.of_launch {kind : RequestKind} {ip packet : Bytes} {port : Uint16} (caller : Caller)
    (h : requestPacket env node d.client.config input kind ip port = .ok packet) :
    Reaches env node d (d.launch env kind ip port caller packet) :=
  ⟨d, .refl, .inr ⟨input, kind, ip, port, caller, packet, h, rfl⟩⟩

/-! ## The coroutines -/

theorem reaches_startCall (kind : RequestKind) (ip : Bytes) (port : Uint16) (caller : Caller)
    {next : Discovery → Discovery}
    (hnext : ∀ d, Reaches env node d (next d)) (d : Discovery) :
    Reaches env node d (d.startCall env node input kind ip port caller next) := by
  unfold startCall
  split_ifs
  · cases hpacket : requestPacket env node d.client.config input kind ip port with
    | error e => exact .head (.quiet (quiet_emit rfl d)) (hnext _)
    | ok packet => exact .of_launch caller hpacket
  · exact .head (.quiet (quiet_emit rfl d)) (hnext _)

theorem reaches_ensureBond (ip : Bytes) (port : Uint16) (caller : Caller) {next : Discovery → Discovery}
    (hnext : ∀ d, Reaches env node d (next d)) (d : Discovery) :
    Reaches env node d (d.ensureBond env node input ip port caller next) := by
  unfold ensureBond
  split_ifs
  · exact hnext d
  · exact reaches_startCall .ping ip port caller hnext d

theorem reaches_askNeighbours (ip : Bytes) (port : Uint16) (targetId : NodeId) (d : Discovery) :
    Reaches env node d (d.askNeighbours env node input ip port targetId) := by
  unfold askNeighbours
  cases hpacket : requestPacket env node d.client.config input (.findNode targetId) ip port with
  | error e => exact .of_move (.quiet (quiet_emit rfl d))
  | ok packet => exact .of_launch .outside hpacket

theorem reaches_findNode (ip : Bytes) (port : Uint16) (targetId : NodeId) (d : Discovery) :
    Reaches env node d (d.findNode env node input ip port targetId) := by
  unfold findNode
  split_ifs
  · exact reaches_ensureBond ip port _ (reaches_askNeighbours ip port targetId) d
  · exact .of_move (.quiet (quiet_emit rfl d))

theorem reaches_report (peer : DiscoveredPeer) (response : Option Discv4EnrResponse) (d : Discovery) :
    Reaches env node d (d.report env node input peer response) :=
  .head (.quiet (quiet_emit rfl d)) (reaches_findNode _ _ _ _)

theorem reaches_enrich (peer : DiscoveredPeer) (d : Discovery) : Reaches env node d (d.enrich env node input peer) :=
  reaches_startCall .enrRequest _ _ _ (reaches_report peer none) d

theorem reaches_runTask (task : Task) (d : Discovery) : Reaches env node d (d.runTask env node input task) := by
  cases task with
  | exploreNeighbour peer => exact reaches_ensureBond _ _ _ (reaches_enrich peer) d
  | answerPing ip port packet =>
      unfold runTask
      dsimp only
      split_ifs
      · refine .of_move (.quiet ⟨.refl _, ?_, rfl, [.sent packet ip port], rfl, by simp [Event.isReceived]⟩)
        show (d.coroutines ++ _).filterMap Coroutine.call? = _
        rw [List.filterMap_append, List.filterMap_cons]
        exact List.append_nil _
      · exact .refl d

theorem reaches_resume (call : Call) (caller : Caller) (result : Except RequestError Reply) (d : Discovery) :
    Reaches env node d (d.resume env node input call caller result) := by
  cases caller with
  | outside => exact .refl d
  | findNode targetId => exact reaches_askNeighbours _ _ targetId d
  | enrich peer => exact reaches_enrich peer d
  | report peer =>
      unfold resume
      dsimp only
      split <;> exact reaches_report peer _ d

theorem reaches_sendReturns (k : Nat) (ok : Bool) (d : Discovery) :
    Reaches env node d (d.sendReturns env node input k ok) := by
  unfold sendReturns
  split
  · rename_i ip port hco
    have hquiet : Quiet d { d with coroutines := d.coroutines.eraseIdx k } := by
      obtain ⟨before, after, hbefore, hafter⟩ := calls_eraseIdx hco
      refine quiet_of_calls (.refl _) ?_ rfl rfl
      rw [hbefore]
      exact hafter.trans (by simp [Coroutine.call?])
    dsimp only
    split_ifs
    · exact .head (.quiet hquiet) (reaches_findNode _ _ _ _)
    · exact .of_move (.quiet hquiet)
  · rename_i call caller hco
    split_ifs
    · exact .of_move (.quiet (quiet_of_calls (.refl _) (calls_set hco rfl) rfl rfl))
    · exact .head (.complete hco (.inr rfl)) (reaches_resume call caller _ _)
  · exact .refl d

theorem reaches_waitReturns (k : Nat) (d : Discovery) : Reaches env node d (d.waitReturns env node input k) := by
  unfold waitReturns
  split
  · rename_i call caller hco
    exact .head (.complete hco (.inl rfl)) (reaches_resume call caller _ _)
  · exact .refl d

theorem reaches_act (action : DiscoveryAction) (d : Discovery) : Reaches env node d (d.act env node input action) := by
  cases action with
  | ping ip port => exact reaches_startCall .ping ip port .outside .refl d
  | requestEnr ip port => exact reaches_startCall .enrRequest ip port .outside .refl d
  | findNode ip port targetId => exact reaches_findNode ip port targetId d
  | runTask k =>
      unfold act
      dsimp only
      cases d.client.tasks[k]? with
      | none => exact .refl d
      | some task =>
          refine .head (.quiet ?_) (reaches_runTask task _)
          exact quiet_of_calls ⟨rfl, rfl, rfl, rfl, rfl, rfl⟩ rfl rfl rfl
  | sendReturns k ok => exact reaches_sendReturns k ok d
  | waitReturns k => exact reaches_waitReturns k d
  | receive data sender =>
      by_cases hrunning : d.client.running = true
      · exact .of_move (.receive input data sender hrunning)
      · have hsame : d.receive env input data sender = d := if_neg hrunning
        show Reaches env node d (d.receive env input data sender)
        rw [hsame]
        exact .refl d
  | stop => exact .of_move .stop

theorem reaches_step (d : Discovery) (action : HandlerInput × DiscoveryAction) :
    Reaches env node d (d.step env node action) := by
  unfold step
  split_ifs
  · exact .refl d
  · exact reaches_act action.2 d

theorem moves_invariant {I : Discovery → Prop} (hmove : ∀ {d d'}, Move env d d' → I d → I d')
    (h : Relation.ReflTransGen (Move env) d d') (hd : I d) : I d' := by
  induction h with
  | refl => exact hd
  | tail _ hstep hI => exact hmove hstep hI

theorem run_invariant {config : Discv4Config} {I : Discovery → Prop} (hinit : I (init config))
    (hmove : ∀ {d d'}, Move env d d' → I d → I d') (hlaunch : ∀ {d d'}, Launches env node d d' → I d → I d')
    (actions : List (HandlerInput × DiscoveryAction)) : I (run env node config actions) := by
  induction actions using List.reverseRecOn with
  | nil => exact hinit
  | append_singleton actions action ih =>
      rw [run_concat]
      obtain ⟨d₁, hmoves, hlast⟩ : Reaches env node _ _ := reaches_step (run env node config actions) action
      have h₁ : I d₁ := moves_invariant hmove hmoves ih
      rcases hlast with heq | hlaunches
      · rw [heq]
        exact h₁
      · exact hlaunch hlaunches h₁

end Reaches

/-! ## Numbers -/

/-- The numbers of timers and slots are those of calls, and smaller than the next one. -/
structure Numbered (d : Discovery) : Prop where
  call_lt : ∀ call ∈ d.calls, call.id < d.nextId
  registered : ∀ key entry, d.client.pendingReplies.lookup key = some entry →
    ∃ call : Call, entry = call.entry ∧ key = call.key ∧ call.id < d.nextId
  owned : ∀ key entry, d.client.pendingReplies.lookup key = some entry → ∀ call ∈ d.calls, entry.timer = call.id →
    key = call.key ∧ entry = call.entry
  pongSlot_lt : ∀ id pong, d.client.pongSlots.lookup id = some pong → id < d.nextId
  enrSlot_lt : ∀ id response, d.client.enrSlots.lookup id = some response → id < d.nextId

theorem eq_id_of_pong {call : Call} {slot : Nat} (h : call.entry.pong = some slot) :
    call.kind = .ping ∧ slot = call.id := by
  unfold Call.entry at h
  cases hkind : call.kind <;> rw [hkind] at h <;> simp at h
  exact ⟨rfl, h.symm⟩

theorem eq_id_of_enrResponse {call : Call} {slot : Nat} (h : call.entry.enrResponse = some slot) :
    call.kind = .enrRequest ∧ slot = call.id := by
  unfold Call.entry at h
  cases hkind : call.kind <;> rw [hkind] at h <;> simp at h
  exact ⟨rfl, h.symm⟩

theorem timer_entry (call : Call) : call.entry.timer = call.id := by
  unfold Call.entry
  cases call.kind <;> rfl

theorem entry_of_ping {call : Call} (hkind : call.kind = .ping) :
    call.entry = ⟨call.id, some call.id, none, call.sentHash⟩ := by
  unfold Call.entry
  rw [hkind]

section Numbered

variable {d d' : Discovery}

theorem Numbered.owned_of_pong (h : Numbered d) {key : Bytes} {entry : PendingReply}
    (hentry : d.client.pendingReplies.lookup key = some entry)
    {call : Call} (hcall : call ∈ d.calls) (hslot : entry.pong = some call.id) :
    key = call.key ∧ entry = call.entry := by
  obtain ⟨owner, rfl, -, -⟩ := h.registered key entry hentry
  exact h.owned key _ hentry call hcall ((timer_entry owner).trans (eq_id_of_pong hslot).2.symm)

theorem Numbered.owned_of_enrResponse (h : Numbered d) {key : Bytes} {entry : PendingReply}
    (hentry : d.client.pendingReplies.lookup key = some entry) {call : Call} (hcall : call ∈ d.calls)
    (hslot : entry.enrResponse = some call.id) : key = call.key ∧ entry = call.entry := by
  obtain ⟨owner, rfl, -, -⟩ := h.registered key entry hentry
  exact h.owned key _ hentry call hcall ((timer_entry owner).trans (eq_id_of_enrResponse hslot).2.symm)

theorem Numbered.same (h : Numbered d) (hclient : SameRequests d.client d'.client) (hcalls : d'.calls = d.calls)
    (hnextId : d'.nextId = d.nextId) : Numbered d' := by
  refine ⟨?_, ?_, ?_, ?_, ?_⟩ <;>
    simp only [hnextId, hcalls, hclient.pendingReplies, hclient.pongSlots, hclient.enrSlots]
  · exact h.call_lt
  · exact h.registered
  · exact h.owned
  · exact h.pongSlot_lt
  · exact h.enrSlot_lt

theorem lookup_insert_lt {α : Type} {slots : Finmap fun _ : Nat => α} {slot n : Nat} {a : α}
    (h : ∀ id b, slots.lookup id = some b → id < n) (hslot : slot < n) (id : Nat) (b : α)
    (hlookup : (slots.insert slot a).lookup id = some b) : id < n := by
  by_cases hid : id = slot
  · rw [hid]
    exact hslot
  · rw [Finmap.lookup_insert_of_ne _ hid] at hlookup
    exact h id b hlookup

variable {env node}

theorem Numbered.receive (h : Numbered d) (input : HandlerInput) (data : Bytes) (sender : Endpoint)
    (hrunning : d.client.running = true) :
    Numbered (d.receive env input data sender) := by
  unfold Discovery.receive
  rw [if_pos hrunning]
  rcases handlePacket_cases env.toDiscv4Primitives input data sender d.client with hsame | hbonds | hpong | henr
  · exact h.same hsame rfl rfl
  · obtain ⟨packet, heq⟩ := hbonds.eq
    refine ⟨h.call_lt, ?_, ?_, ?_, ?_⟩ <;> dsimp only [emit] <;> rw [heq]
    · exact h.registered
    · exact h.owned
    · exact h.pongSlot_lt
    · exact h.enrSlot_lt
  · obtain ⟨pong, entry, slot, -, hentry, -, hslot, heq⟩ := hpong
    obtain ⟨call, rfl, -, hlt⟩ := h.registered _ _ hentry
    refine ⟨h.call_lt, ?_, ?_, ?_, ?_⟩ <;> dsimp only [emit] <;> rw [heq]
    · exact h.registered
    · exact h.owned
    · exact lookup_insert_lt h.pongSlot_lt ((eq_id_of_pong hslot).2 ▸ hlt)
    · exact h.enrSlot_lt
  · obtain ⟨response, entry, slot, -, hentry, -, hslot, heq⟩ := henr
    obtain ⟨call, rfl, -, hlt⟩ := h.registered _ _ hentry
    refine ⟨h.call_lt, ?_, ?_, ?_, ?_⟩ <;> dsimp only [emit] <;> rw [heq]
    · exact h.registered
    · exact h.owned
    · exact h.pongSlot_lt
    · exact lookup_insert_lt h.enrSlot_lt ((eq_id_of_enrResponse hslot).2 ▸ hlt)

theorem Numbered.move (h : Numbered d) (hmove : Move env d d') : Numbered d' := by
  have hcalls := (calls_sublist_of_move hmove).subset
  cases hmove with
  | quiet hquiet => exact h.same hquiet.client hquiet.calls hquiet.nextId
  | @complete k call _ _ _ hco _ =>
      have hold {key : Bytes} {entry : PendingReply}
          (hlookup : (d.client.pendingReplies.erase call.key).lookup key = some entry) :
          d.client.pendingReplies.lookup key = some entry := by
        by_cases hkey : key = call.key
        · rw [hkey] at hlookup
          cases (Finmap.lookup_erase _ _).symm.trans hlookup
        · exact (Finmap.lookup_erase_ne hkey).symm.trans hlookup
      refine ⟨fun call hcall => h.call_lt call (hcalls hcall), ?_, ?_, ?_, ?_⟩ <;> rw [client_complete]
      · exact fun key entry hlookup => h.registered key entry (hold hlookup)
      · exact fun key entry hlookup other hother => h.owned key entry (hold hlookup) other (hcalls hother)
      · exact h.pongSlot_lt
      · exact h.enrSlot_lt
  | receive input data sender hrunning => exact h.receive input data sender hrunning
  | stop =>
      refine ⟨h.call_lt, fun key entry hlookup => ?_, fun key entry hlookup => ?_, h.pongSlot_lt, h.enrSlot_lt⟩ <;>
        cases (Finmap.lookup_empty key).symm.trans hlookup

theorem Numbered.launch (h : Numbered d) (hlaunch : Launches env node d d') : Numbered d' := by
  obtain ⟨input, kind, ip, port, caller, packet, -, rfl⟩ := hlaunch
  -- an entry is the new one, or an old one under another key
  have hentries {key : Bytes} {entry : PendingReply}
      (hlookup : (d.launch env kind ip port caller packet).client.pendingReplies.lookup key = some entry) :
      key = Call.key ⟨kind, ip, port, d.nextId, packet⟩ ∧ entry = Call.entry ⟨kind, ip, port, d.nextId, packet⟩ ∨
        d.client.pendingReplies.lookup key = some entry := by
    rw [client_launch] at hlookup
    by_cases hkey : key = replyKey ip port kind.replyType
    · rw [hkey] at hlookup
      exact .inl ⟨hkey, Option.some.inj (hlookup.symm.trans (Finmap.lookup_insert _))⟩
    · exact .inr ((Finmap.lookup_insert_of_ne _ hkey).symm.trans hlookup)
  refine ⟨fun call hcall => ?_, fun key entry hlookup => ?_, fun key entry hlookup call hcall htimer => ?_,
    fun id pong hlookup => ?_, fun id response hlookup => ?_⟩
  · rw [nextId_launch]
    rcases mem_calls_launch hcall with hold | ⟨rfl, -⟩
    · exact Nat.lt_succ_of_lt (h.call_lt call hold)
    · exact Nat.lt_succ_self _
  · rw [nextId_launch]
    rcases hentries hlookup with ⟨rfl, rfl⟩ | hold
    · exact ⟨_, rfl, rfl, Nat.lt_succ_self _⟩
    · obtain ⟨call, hentry, hkey, hlt⟩ := h.registered key entry hold
      exact ⟨call, hentry, hkey, Nat.lt_succ_of_lt hlt⟩
  · -- the new entry and the new call have a number that no other has
    rcases hentries hlookup with ⟨rfl, rfl⟩ | hold <;> rcases mem_calls_launch hcall with hcall | ⟨rfl, -⟩
    · exact absurd ((timer_entry _).symm.trans htimer) (h.call_lt call hcall).ne'
    · exact ⟨rfl, rfl⟩
    · exact h.owned key entry hold call hcall htimer
    · obtain ⟨other, rfl, -, hlt⟩ := h.registered key entry hold
      exact absurd ((timer_entry other).symm.trans htimer) hlt.ne
  · rw [client_launch] at hlookup
    exact nextId_launch env d kind ip port caller packet ▸ Nat.lt_succ_of_lt (h.pongSlot_lt id pong hlookup)
  · rw [client_launch] at hlookup
    exact nextId_launch env d kind ip port caller packet ▸ Nat.lt_succ_of_lt (h.enrSlot_lt id response hlookup)

end Numbered

theorem numbered_init (config : Discv4Config) : Numbered (init config) := by
  refine ⟨?_, ?_, ?_, ?_, ?_⟩ <;> simp [init, calls]

theorem numbered_run {env : RequestPrimitives} {node : LocalNode} {config : Discv4Config}
    (actions : List (HandlerInput × DiscoveryAction)) : Numbered (run env node config actions) :=
  run_invariant (numbered_init config) (fun hmove h => h.move hmove) (fun hlaunch h => h.launch hlaunch) actions

end Discovery

end DevP2P.Discv4
