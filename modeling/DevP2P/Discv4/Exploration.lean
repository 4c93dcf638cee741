import DevP2P.Discv4.RequestSteps
import Mathlib.Data.List.Perm.Subperm

/-!
# What the client keeps track of

* `Owned` : every entry of `pending_replies_` belongs to a call that waits; `pending_entries_have_owners` : in every
  run;
* `exploring` : the endpoints of the neighbours that wait for their task, are being asked, or were reported;
* `Advances` : what a coroutine leaves alone and what it sends; `Passes` : one that is given a neighbour hands it on at
  most once; `passes_act` : all coroutines do so;
* `Discovers` : what a packet adds;
* `endpoints_explored_once` : in every run, an endpoint has one task at most and is reported at most once.
-/

namespace DevP2P.Discv4
open DevP2P.Lib DevP2P.Rlp Stateful

namespace Discovery

/-! ## Entries and their calls -/

/-- Every entry belongs to a call that waits; only a call whose address cannot be read leaves one behind. -/
def Owned (env : RequestPrimitives) (d : Discovery) : Prop :=
  ∀ key entry, d.client.pendingReplies.lookup key = some entry →
    (∃ call ∈ d.calls, key = call.key ∧ entry = call.entry) ∨ ∃ ip port ptype, env.isAddress ip = false ∧
      key = replyKey ip port ptype

section

variable {env : RequestPrimitives} {node : LocalNode} {d d' : Discovery}

theorem Owned.move (h : Owned env d) (hmove : Move env d d') : Owned env d' := by
  have hsame (hreplies : d'.client.pendingReplies = d.client.pendingReplies) (hcalls : d'.calls = d.calls) :
      Owned env d' := by
    unfold Owned
    rw [hreplies, hcalls]
    exact h
  cases hmove with
  | quiet hquiet => exact hsame hquiet.client.pendingReplies hquiet.calls
  | @complete k done _ _ result hco _ =>
      intro key entry hlookup
      obtain ⟨before, after, hbefore, hafter⟩ := calls_complete _ _ _ result hco
      rw [client_complete] at hlookup
      have hkey : key ≠ done.key := by
        rintro rfl
        rw [Finmap.lookup_erase] at hlookup
        cases hlookup
      rw [Finmap.lookup_erase_ne hkey] at hlookup
      rcases h key entry hlookup with ⟨call, hcall, rfl, hentry⟩ | hunread
      · -- the owner is not the call that returns, since that one has another key
        refine .inl ⟨call, ?_, rfl, hentry⟩
        rw [hbefore] at hcall
        rw [hafter]
        rcases List.mem_append.mp hcall with hfront | hback
        · exact List.mem_append_left _ hfront
        · rcases List.mem_cons.mp hback with rfl | hback
          · exact absurd rfl hkey
          · exact List.mem_append_right _ hback
      · exact .inr hunread
  | receive input data sender hrunning =>
      refine hsame ?_ ?_
      · unfold Discovery.receive
        rw [if_pos hrunning]
        exact (handlePacket_keeps env.toDiscv4Primitives input data sender d.client).2.2.1
      · unfold Discovery.receive
        rw [if_pos hrunning]
        rfl
  | stop =>
      intro key entry hlookup
      exact absurd hlookup (by simp [Discovery.stop])

theorem Owned.launch (h : Owned env d) (hlaunch : Launches env node d d') : Owned env d' := by
  obtain ⟨input, kind, ip, port, caller, packet, -, rfl⟩ := hlaunch
  intro key entry hlookup
  rw [client_launch] at hlookup
  rw [calls_launch]
  by_cases hkey : key = replyKey ip port kind.replyType
  · rw [hkey, Finmap.lookup_insert, Option.some.injEq] at hlookup
    by_cases haddress : env.isAddress ip = true
    · rw [if_pos haddress]
      exact .inl ⟨_, List.mem_append_right _ (List.mem_singleton_self _), hkey, hlookup.symm⟩
    · exact .inr ⟨ip, port, kind.replyType, Bool.not_eq_true _ ▸ haddress, hkey⟩
  · rw [Finmap.lookup_insert_of_ne _ hkey] at hlookup
    rcases h key entry hlookup with ⟨call, hcall, howner⟩ | hunread
    · refine .inl ⟨call, ?_, howner⟩
      split_ifs
      · exact List.mem_append_left _ hcall
      · exact hcall
    · exact .inr hunread

/-- **Replies are awaited by calls only.** In every run, each entry of `pending_replies_` is the one of a call that
waits, unless it was left by a call whose address could not be read. -/
theorem pending_entries_have_owners (env : RequestPrimitives) (node : LocalNode) (config : Discv4Config)
    (actions : List (HandlerInput × DiscoveryAction)) : Owned env (run env node config actions) :=
  run_invariant (fun key entry hlookup => absurd hlookup (by simp [init])) (fun hmove h => h.move hmove)
    (fun hlaunch h => h.launch hlaunch) actions

end

end Discovery

/-! ## Neighbours and their endpoints -/

def DiscoveredPeer.endpoint (peer : DiscoveredPeer) : Bytes := endpointKey peer.ip peer.udpPort

def Task.explored? : Task → Option Bytes
  | .answerPing _ _ _ => none
  | .exploreNeighbour peer => some peer.endpoint

def Caller.explored? : Caller → Option Bytes
  | .outside => none
  | .findNode _ => none
  | .enrich peer => some peer.endpoint
  | .report peer => some peer.endpoint

def Coroutine.explored? : Coroutine → Option Bytes
  | .answering _ _ => none
  | .request _ _ caller => caller.explored?

def Event.reported? : Event → Option Bytes
  | .discovered peer => some peer.endpoint
  | _ => none

namespace Discovery

/-- The neighbours whose task waits or runs, and those that were reported, by their endpoints. -/
def exploring (d : Discovery) : List Bytes :=
  d.client.tasks.filterMap Task.explored? ++ (d.coroutines.filterMap Coroutine.explored? ++
    d.trace.filterMap Event.reported?)

/-- A packet is sent that was made for a request, or the answer that a task has. -/
structure Advances (env : RequestPrimitives) (node : LocalNode) (d d' : Discovery) : Prop where
  config : d'.client.config = d.client.config
  discoveredSet : d'.client.discoveredSet = d.client.discoveredSet
  tasks : d'.client.tasks ⊆ d.client.tasks
  sent : ∀ packet ip port, Event.sent packet ip port ∈ d'.trace → Event.sent packet ip port ∈ d.trace ∨
    (∃ input kind, requestPacket env node d.client.config input kind ip port = .ok packet) ∨
      Task.answerPing ip port packet ∈ d.client.tasks

/-- The client goes on with the neighbours it had and with those of `inHand`; none is doubled. -/
structure Passes (env : RequestPrimitives) (node : LocalNode) (inHand : List Bytes) (d d' : Discovery) : Prop extends
    Advances env node d d' where
  exploring : d'.exploring.Subperm (inHand ++ d.exploring)

section

variable {env : RequestPrimitives} {node : LocalNode} {input : HandlerInput} {inHand : List Bytes}
    {d d' d'' : Discovery}

theorem Advances.of_eq (hclient : d'.client = d.client) (htrace : d'.trace = d.trace) : Advances env node d d' := by
  refine ⟨by rw [hclient], by rw [hclient], by rw [hclient]; exact List.Subset.refl _, ?_⟩
  intro packet ip port hsent
  rw [htrace] at hsent
  exact .inl hsent

theorem Advances.trans (h : Advances env node d d') (h' : Advances env node d' d'') : Advances env node d d'' := by
  refine ⟨h'.config.trans h.config, h'.discoveredSet.trans h.discoveredSet, fun task htask =>
    h.tasks (h'.tasks htask), ?_⟩
  intro packet ip port hsent
  rcases h'.sent packet ip port hsent with hold | ⟨input, kind, hpacket⟩ | hanswer
  · exact h.sent packet ip port hold
  · rw [h.config] at hpacket
    exact .inr (.inl ⟨input, kind, hpacket⟩)
  · exact .inr (.inr (h.tasks hanswer))

theorem advances_emit {event : Event} (h : ∀ packet ip port, event ≠ .sent packet ip port) (d : Discovery) :
    Advances env node d (d.emit event) := by
  refine ⟨rfl, rfl, List.Subset.refl _, ?_⟩
  intro packet ip port hsent
  rcases List.mem_append.mp hsent with hold | hnew
  · exact .inl hold
  · exact absurd (List.mem_singleton.mp hnew).symm (h packet ip port)

theorem Passes.refl (inHand : List Bytes) (d : Discovery) : Passes env node inHand d d :=
  ⟨.of_eq rfl rfl, (List.sublist_append_right _ _).subperm⟩

theorem Passes.head {more : List Bytes} (h : Passes env node more d' d'') (hadvances : Advances env node d d')
    (hexploring : (more ++ d'.exploring).Subperm (inHand ++ d.exploring)) : Passes env node inHand d d'' :=
  ⟨hadvances.trans h.toAdvances, h.exploring.trans hexploring⟩

theorem exploring_emit (event : Event) (d : Discovery) :
    (d.emit event).exploring = d.exploring ++ event.reported?.toList := by
  unfold exploring emit
  dsimp only
  rw [List.filterMap_append, List.append_assoc, List.append_assoc]
  cases h : event.reported? <;> simp [h]

theorem passes_returned (result : Except RequestError Reply) (d : Discovery) :
    Passes env node [] d (d.emit (.returned none result)) := by
  refine ⟨advances_emit (by simp) d, ?_⟩
  rw [exploring_emit]
  exact (List.append_nil d.exploring).symm ▸ List.Subperm.refl _

theorem passes_launch {kind : RequestKind} {ip packet : Bytes} {port : Uint16} (caller : Caller)
    (hpacket : requestPacket env node d.client.config input kind ip port = .ok packet) :
    Passes env node caller.explored?.toList d (d.launch env kind ip port caller packet) := by
  refine ⟨⟨by rw [client_launch], by rw [client_launch], by rw [client_launch]; exact List.Subset.refl _, ?_⟩, ?_⟩
  · intro packet' ip' port' hsent
    rw [trace_launch] at hsent
    split_ifs at hsent
    · rcases List.mem_append.mp hsent with hold | hnew
      · exact .inl hold
      · cases List.mem_singleton.mp hnew
        exact .inr (.inl ⟨input, kind, hpacket⟩)
    · exact .inl hsent
  · unfold launch
    dsimp only
    split_ifs
    · rw [exploring_emit, show (Event.sent packet ip port).reported? = none from rfl, Option.toList_none,
        List.append_nil]
      unfold exploring register
      dsimp only
      rw [List.filterMap_append, List.filterMap_cons]
      refine List.Perm.subperm ?_
      cases hcaller : caller.explored? with
      | none =>
          rw [show Coroutine.explored? (.request ⟨kind, ip, port, d.nextId, packet⟩ true caller) = none from hcaller]
          simp
      | some key =>
          rw [show Coroutine.explored? (.request ⟨kind, ip, port, d.nextId, packet⟩ true caller) =
            some key from hcaller]
          simp only [List.filterMap_nil, List.append_assoc, Option.toList_some, List.singleton_append]
          exact (List.perm_middle.append_left _).trans List.perm_middle
    · exact (List.sublist_append_right _ _).subperm

/-! ### The coroutines -/

theorem passes_startCall (kind : RequestKind) (ip : Bytes) (port : Uint16) (caller : Caller)
    {next : Discovery → Discovery}
    (hnext : ∀ d, Passes env node caller.explored?.toList d (next d)) (d : Discovery) :
    Passes env node caller.explored?.toList d (d.startCall env node input kind ip port caller next) := by
  have hreturned (e : RequestError) : Passes env node caller.explored?.toList d
      (next (d.emit (.returned none (.error e)))) := by
    refine (hnext _).head (advances_emit (by simp) d) ?_
    rw [exploring_emit]
    exact (List.append_nil d.exploring).symm ▸ List.Subperm.refl _
  unfold startCall
  split_ifs
  · cases hpacket : requestPacket env node d.client.config input kind ip port with
    | error e => exact hreturned e
    | ok packet => exact passes_launch caller hpacket
  · exact hreturned _

theorem passes_ensureBond (ip : Bytes) (port : Uint16) (caller : Caller) {next : Discovery → Discovery}
    (hnext : ∀ d, Passes env node caller.explored?.toList d (next d)) (d : Discovery) :
    Passes env node caller.explored?.toList d (d.ensureBond env node input ip port caller next) := by
  unfold ensureBond
  split_ifs
  · exact hnext d
  · exact passes_startCall .ping ip port caller hnext d

theorem passes_askNeighbours (ip : Bytes) (port : Uint16) (targetId : NodeId) (d : Discovery) :
    Passes env node [] d (d.askNeighbours env node input ip port targetId) := by
  unfold askNeighbours
  cases hpacket : requestPacket env node d.client.config input (.findNode targetId) ip port with
  | error e => exact passes_returned _ d
  | ok packet => exact passes_launch .outside hpacket

theorem passes_findNode (ip : Bytes) (port : Uint16) (targetId : NodeId) (d : Discovery) :
    Passes env node [] d (d.findNode env node input ip port targetId) := by
  unfold findNode
  split_ifs
  · exact passes_ensureBond ip port (.findNode targetId) (passes_askNeighbours ip port targetId) d
  · exact passes_returned _ d

theorem passes_report (peer : DiscoveredPeer) (response : Option Discv4EnrResponse) (d : Discovery) :
    Passes env node [peer.endpoint] d (d.report env node input peer response) := by
  unfold report
  refine (passes_findNode peer.ip peer.udpPort peer.nodeId _).head (advances_emit (by simp) d) ?_
  rw [exploring_emit, List.nil_append]
  exact (@List.perm_append_comm _ d.exploring _).subperm

theorem passes_enrich (peer : DiscoveredPeer) (d : Discovery) :
    Passes env node [peer.endpoint] d (d.enrich env node input peer) :=
  passes_startCall .enrRequest _ _ (.report peer) (passes_report peer none) d

theorem passes_explore (peer : DiscoveredPeer) (d : Discovery) :
    Passes env node [peer.endpoint] d (d.explore env node input peer) :=
  passes_ensureBond _ _ (.enrich peer) (passes_enrich peer) d

theorem passes_resume (call : Call) (caller : Caller) (result : Except RequestError Reply) (d : Discovery) :
    Passes env node caller.explored?.toList d (d.resume env node input call caller result) := by
  cases caller with
  | outside => exact .refl _ d
  | findNode targetId => exact passes_askNeighbours _ _ targetId d
  | enrich peer => exact passes_enrich peer d
  | report peer =>
      unfold resume
      dsimp only
      split <;> exact passes_report peer _ d

theorem filterMap_eraseIdx {α : Type} (f : α → Option Bytes) {as : List α} {k : Nat} {a : α} (h : as[k]? = some a) :
    ((f a).toList ++ (as.eraseIdx k).filterMap f).Perm (as.filterMap f) := by
  obtain ⟨hk, rfl⟩ := List.getElem?_eq_some_iff.mp h
  have hsplit : as = as.take k ++ as[k] :: as.drop (k + 1) := by
    rw [← List.drop_eq_getElem_cons hk, List.take_append_drop]
  conv => rhs; rw [hsplit]
  rw [List.eraseIdx_eq_take_drop_succ, List.filterMap_append, List.filterMap_append, List.filterMap_cons]
  cases f as[k] with
  | none => exact List.Perm.refl _
  | some b =>
      dsimp only
      rw [Option.toList_some, List.singleton_append]
      exact List.perm_middle.symm

theorem passes_runTask {k : Nat} {task : Task} (h : d.client.tasks[k]? = some task) :
    Passes env node [] d (runTask env node input { d with
      client := { d.client with tasks := d.client.tasks.eraseIdx k } } task) := by
  have hperm := filterMap_eraseIdx Task.explored? h
  have htaken : (task.explored?.toList ++ exploring { d with
    client := { d.client with tasks := d.client.tasks.eraseIdx k } }).Subperm
      ([] ++ d.exploring) := by
    unfold exploring
    rw [List.nil_append, ← List.append_assoc]
    exact (hperm.append_right _).subperm
  have hadvances : Advances env node d { d with client := { d.client with tasks := d.client.tasks.eraseIdx k } } :=
    ⟨rfl, rfl, (List.eraseIdx_sublist _ _).subset, fun _ _ _ hsent => .inl hsent⟩
  cases task with
  | answerPing ip port packet =>
      unfold runTask
      dsimp only
      split_ifs
      · refine ⟨⟨rfl, rfl, hadvances.tasks, ?_⟩, ?_⟩
        · intro packet' ip' port' hsent
          rcases List.mem_append.mp hsent with hold | hnew
          · exact .inl hold
          · cases List.mem_singleton.mp hnew
            exact .inr (.inr (List.mem_of_getElem? h))
        · rw [exploring_emit]
          refine (List.Perm.of_eq ?_).subperm.trans htaken
          simp [exploring, Coroutine.explored?, Event.reported?, Task.explored?]
      · exact ⟨hadvances, htaken⟩
  | exploreNeighbour peer => exact (passes_explore peer _).head hadvances htaken

theorem exploring_complete {k : Nat} {call : Call} {sending : Bool} {caller : Caller}
    (result : Except RequestError Reply)
    (h : d.coroutines[k]? = some (.request call sending caller)) :
    (caller.explored?.toList ++ (d.complete k call result).exploring).Perm d.exploring := by
  have hperm := filterMap_eraseIdx Coroutine.explored? h
  have hcomplete : (d.complete k call result).exploring =
      d.client.tasks.filterMap Task.explored? ++
        ((d.coroutines.eraseIdx k).filterMap Coroutine.explored? ++ d.trace.filterMap Event.reported?) := by
    unfold complete
    rw [exploring_emit]
    unfold exploring
    rcases result with e | (pong | response | _) <;> simp [Event.reported?]
  rw [hcomplete]
  unfold exploring
  refine (List.perm_append_comm_assoc _ _ _).trans (List.Perm.append_left _ ?_)
  rw [← List.append_assoc]
  exact hperm.append_right _

theorem advances_complete (k : Nat) (call : Call) (result : Except RequestError Reply) (d : Discovery) :
    Advances env node d (d.complete k call result) := by
  refine ⟨by rw [client_complete], by rw [client_complete], by rw [client_complete]; exact List.Subset.refl _, ?_⟩
  intro packet ip port hsent
  rcases List.mem_append.mp hsent with hold | hnew
  · exact .inl hold
  · cases List.mem_singleton.mp hnew

theorem passes_sendReturns (k : Nat) (ok : Bool) (d : Discovery) :
    Passes env node [] d (d.sendReturns env node input k ok) := by
  unfold sendReturns
  split
  · rename_i ip port hco
    have hperm := filterMap_eraseIdx Coroutine.explored? hco
    have herased : exploring { d with coroutines := d.coroutines.eraseIdx k } |>.Subperm d.exploring :=
      ((hperm.append_right _).append_left _).subperm
    dsimp only
    split_ifs
    · exact (passes_findNode ip port node.publicKey _).head (.of_eq rfl rfl) herased
    · exact ⟨.of_eq rfl rfl, herased⟩
  · rename_i call caller hco
    split_ifs
    · refine ⟨.of_eq rfl rfl, ?_⟩
      have hset : (d.coroutines.set k (.request call false caller)).map Coroutine.explored? =
          d.coroutines.map Coroutine.explored? := by
        apply List.ext_getElem?
        grind [Coroutine.explored?]
      have hsame := congrArg (List.filterMap id) hset
      rw [List.filterMap_map, List.filterMap_map] at hsame
      exact (List.Perm.of_eq (congrArg (fun found => _ ++ (found ++ _)) hsame)).subperm
    · exact (passes_resume call caller _ _).head (advances_complete _ _ _ _) (exploring_complete _ hco).subperm
  · exact .refl [] d

theorem passes_waitReturns (k : Nat) (d : Discovery) : Passes env node [] d (d.waitReturns env node input k) := by
  unfold waitReturns
  split
  · rename_i call caller hco
    exact (passes_resume call caller _ _).head (advances_complete _ _ _ _) (exploring_complete _ hco).subperm
  · exact .refl [] d

theorem passes_act {action : DiscoveryAction} (haction : ∀ data sender, action ≠ .receive data sender) (d : Discovery) :
    Passes env node [] d (d.act env node input action) := by
  cases action with
  | ping ip port => exact passes_startCall .ping ip port .outside (.refl []) d
  | requestEnr ip port => exact passes_startCall .enrRequest ip port .outside (.refl []) d
  | findNode ip port targetId => exact passes_findNode ip port targetId d
  | runTask k =>
      unfold act
      dsimp only
      cases htask : d.client.tasks[k]? with
      | none => exact .refl [] d
      | some task => exact passes_runTask htask
  | sendReturns k ok => exact passes_sendReturns k ok d
  | waitReturns k => exact passes_waitReturns k d
  | receive data sender => exact absurd rfl (haction data sender)
  | stop => exact ⟨⟨rfl, rfl, List.Subset.refl _, fun _ _ _ hsent => .inl hsent⟩, List.Subperm.refl _⟩

end

/-! ## Packets -/

def AnswersPing (env : Discv4Primitives) (config : Discv4Config) (packet : Bytes) : Prop :=
  ∃ ip port pingHash expiration,
    signPacket env config.privateKey (pongPayload ip port config.tcpPort pingHash expiration) = .ok packet

/-- The tasks that a packet adds answer it, or explore endpoints that are new. -/
structure Discovers (env : Discv4Primitives) (c c' : Discv4Client) : Prop where
  config : c'.config = c.config
  subset : c.discoveredSet ⊆ c'.discoveredSet
  tasks : ∃ tasks, c'.tasks = c.tasks ++ tasks ∧ (tasks.filterMap Task.explored?).Nodup ∧
    (∀ key ∈ tasks.filterMap Task.explored?, key ∉ c.discoveredSet ∧ key ∈ c'.discoveredSet) ∧
    ∀ ip port packet, Task.answerPing ip port packet ∈ tasks → AnswersPing env c.config packet

section

variable {env : Discv4Primitives} {c c' c'' : Discv4Client}

theorem Discovers.of_eq (hconfig : c'.config = c.config) (hset : c'.discoveredSet = c.discoveredSet)
    (htasks : c'.tasks = c.tasks) :
    Discovers env c c' :=
  ⟨hconfig, hset ▸ subset_rfl, [], by rw [htasks, List.append_nil], List.nodup_nil, by simp, by simp⟩

theorem Discovers.trans (h : Discovers env c c') (h' : Discovers env c' c'') : Discovers env c c'' := by
  obtain ⟨tasks, htasks, hnodup, hnew, hanswers⟩ := h.tasks
  obtain ⟨tasks', htasks', hnodup', hnew', hanswers'⟩ := h'.tasks
  refine ⟨h'.config.trans h.config, h.subset.trans h'.subset,
    tasks ++ tasks', by rw [htasks', htasks, List.append_assoc], ?_, ?_, ?_⟩
  · rw [List.filterMap_append]
    refine hnodup.append hnodup' ?_
    intro key hkey hkey'
    exact (hnew' key hkey').1 (hnew key hkey).2
  · intro key hkey
    rw [List.filterMap_append] at hkey
    rcases List.mem_append.mp hkey with hfirst | hsecond
    · exact ⟨(hnew key hfirst).1, h'.subset (hnew key hfirst).2⟩
    · exact ⟨fun hold => (hnew' key hsecond).1 (h.subset hold), (hnew' key hsecond).2⟩
  · intro ip port packet htask
    rcases List.mem_append.mp htask with hfirst | hsecond
    · exact hanswers ip port packet hfirst
    · exact h.config ▸ hanswers' ip port packet hsecond

theorem discovers_recordNode (lastSeen : Nat) (entry : NodeEntry) (c : Discv4Client) :
    Discovers env c (recordNode lastSeen entry c) := by
  unfold recordNode
  dsimp only
  split_ifs with hport hnew
  · exact .of_eq rfl rfl rfl
  · refine ⟨rfl, Finset.subset_insert _ _,
      [.exploreNeighbour ⟨entry.nodeId, ipText entry.ip, entry.udpPort, entry.tcpPort, lastSeen⟩], rfl,
      List.nodup_singleton _, ?_, by simp⟩
    intro key hkey
    rw [List.mem_singleton.mp hkey]
    exact ⟨hnew.2, Finset.mem_insert_self _ _⟩
  · exact .of_eq rfl rfl rfl

theorem discovers_neighboursLoop (input : HandlerInput) (nodesStart nodesLen fuel i : Nat) (d : RlpDecoder)
    (c : Discv4Client) :
    Discovers env c (neighboursLoop input nodesStart nodesLen fuel i d c) := by
  induction fuel generalizing i d c with
  | zero => exact .of_eq rfl rfl rfl
  | succ fuel ih =>
      unfold neighboursLoop
      split_ifs
      · exact .of_eq rfl rfl rfl
      · cases readNode d with
        | error e d' => exact .of_eq rfl rfl rfl
        | ok entry d' => exact (discovers_recordNode _ entry c).trans (ih _ _ _)

end

section

variable (env : Discv4Primitives) (input : HandlerInput) {data : Bytes} (sender : Endpoint) (c : Discv4Client)

theorem handlePing_run (hlen : kWireHeaderSize ≤ data.length) {packet : Bytes}
    (hsign : signPacket env c.config.privateKey (pongPayload sender.address sender.port c.config.tcpPort
      (FixedBytes.load 32 data)
      (expirationAt input)) = .ok packet) :
    handlePing env input data sender c = .ok ()
      { c with
        bondedSet := insert (endpointKey (env.addressToString sender.address) sender.port) c.bondedSet
        tasks := c.tasks ++ [.answerPing (env.addressToString sender.address) sender.port packet] } := by
  unfold handlePing
  rw [rejectIf_bind_of_not (Nat.not_lt.mpr hlen)]
  dsimp only
  rw [get_bind, encodePong_eq, Stateful.outcome, bind_of_ok (orReturn_ok _ c)]
  unfold pongPayload at hsign
  rw [hsign, bind_of_ok (orReturn_ok packet c)]
  rfl

theorem discovers_handlePing (hlen : kWireHeaderSize ≤ data.length) :
    Discovers env c (finalState (handlePing env input data sender c)) := by
  by_cases hsigned : AnswerSigned env input data sender c
  · obtain ⟨packet, hsign⟩ := hsigned
    rw [handlePing_run env input sender c hlen hsign]
    refine ⟨rfl, subset_rfl, [.answerPing (env.addressToString sender.address) sender.port packet], rfl, List.nodup_nil,
      by simp [Task.explored?], ?_⟩
    intro ip port packet' htask
    cases List.mem_singleton.mp htask
    exact ⟨_, _, _, _, hsign⟩
  · rw [handlePing_of_not_signed env input sender c hlen hsigned]
    exact .of_eq rfl rfl rfl

theorem discovers_acceptReply {R : Type} {ptype : UInt8} {parse : Bytes → Except DecodingError R} {token : R → Hash}
    {slotOf : PendingReply → Option Nat} {store : Nat → R → Discv4Client → Discv4Client}
    (hstore : ∀ slot reply, Discovers env c (store slot reply c)) (hlen : kWireHeaderSize ≤ data.length) :
    Discovers env c (finalState (acceptReply env ptype parse token slotOf store data sender c)) := by
  by_cases hawaited : ReplyAwaited env data sender c ptype parse token slotOf
  · obtain ⟨reply, entry, slot, hparse, hentry, htoken, hslot⟩ := hawaited
    rw [acceptReply_of_awaited env sender c hlen hparse hentry htoken hslot]
    exact (hstore slot reply).trans (.of_eq rfl rfl rfl)
  · rw [acceptReply_of_not_awaited env sender c hlen hawaited]
    exact .of_eq rfl rfl rfl

theorem discovers_handleNeighbours (hlen : kWireHeaderSize ≤ data.length) :
    Discovers env c (finalState (handleNeighbours env input data sender c)) := by
  unfold handleNeighbours
  rw [rejectIf_bind_of_not (Nat.not_lt.mpr hlen), get_bind]
  cases pendingReply env sender kPacketTypeNeighbours c with
  | none =>
      rw [Outcome.unwrap_none, bind_of_error (orReturn_error () c)]
      exact .of_eq rfl rfl rfl
  | some entry =>
      rw [Outcome.unwrap_some, bind_of_ok (orReturn_ok entry c)]
      unfold cancel
      rw [bind_of_ok (modify_apply _ c)]
      have hcancel : Discovers env c { c with cancelled := c.cancelled ++ [entry.timer] } := .of_eq rfl rfl rfl
      cases readNodes ⟨data.drop kWireHeaderSize⟩ with
      | error e d => exact hcancel
      | ok nodesLen d => exact hcancel.trans (discovers_neighboursLoop input _ _ _ _ _ _)

theorem discovers_handlePacket (data : Bytes) : Discovers env c
    (finalState (handlePacket env input data sender c)) := by
  unfold handlePacket
  by_cases hlen : kWireHeaderSize ≤ data.length
  · rw [rejectIf_bind_of_not (Nat.not_lt.mpr hlen)]
    split_ifs
    · exact discovers_handlePing env input sender c hlen
    · exact discovers_acceptReply env sender c (fun _ _ => .of_eq rfl rfl rfl) hlen
    · exact .of_eq rfl rfl rfl
    · exact discovers_handleNeighbours env input sender c hlen
    · exact .of_eq rfl rfl rfl
    · exact discovers_acceptReply env sender c (fun _ _ => .of_eq rfl rfl rfl) hlen
    · exact .of_eq rfl rfl rfl
  · rw [rejectIf_bind_of (Nat.lt_of_not_le hlen)]
    exact .of_eq rfl rfl rfl

end

/-! ## Runs -/

/-- No endpoint is explored twice, and those that are explored are known. -/
structure ExploredOnce (d : Discovery) : Prop where
  nodup : d.exploring.Nodup
  known : ∀ key ∈ d.exploring, key ∈ d.client.discoveredSet

section

variable {env : RequestPrimitives} {node : LocalNode} {d d' : Discovery}

theorem ExploredOnce.passes (h : ExploredOnce d) (hpasses : Passes env node [] d d') : ExploredOnce d' := by
  obtain ⟨rest, hperm, hsub⟩ := hpasses.exploring
  have hsubset : ∀ key ∈ d'.exploring, key ∈ d.exploring := fun key hkey => hsub.subset (hperm.mem_iff.mpr hkey)
  refine ⟨hperm.nodup_iff.mp (hsub.nodup h.nodup), ?_⟩
  intro key hkey
  rw [hpasses.discoveredSet]
  exact h.known key (hsubset key hkey)

theorem ExploredOnce.receive (h : ExploredOnce d) (input : HandlerInput) (data : Bytes) (sender : Endpoint) :
    ExploredOnce (d.receive env input data sender) := by
  unfold Discovery.receive
  split_ifs
  · have hpacket := discovers_handlePacket env.toDiscv4Primitives input sender d.client data
    generalize finalState (handlePacket env.toDiscv4Primitives input data sender d.client) = c' at hpacket
    obtain ⟨tasks, htasks, hnodup, hnew, -⟩ := hpacket.tasks
    -- the new tasks stand between the old ones and the coroutines
    have hexploring : (emit (.received input.unixTime data sender) { d with client := c' }).exploring.Perm
        (tasks.filterMap Task.explored? ++ d.exploring) := by
      rw [exploring_emit, show (Event.received input.unixTime data sender).reported? = none from rfl,
        Option.toList_none, List.append_nil]
      unfold exploring
      dsimp only
      rw [htasks, List.filterMap_append, List.append_assoc]
      exact List.perm_append_comm_assoc _ _ _
    refine ⟨hexploring.nodup_iff.mpr (hnodup.append h.nodup ?_), ?_⟩
    · intro key hkey hold
      exact (hnew key hkey).1 (h.known key hold)
    · intro key hkey
      rcases List.mem_append.mp (hexploring.mem_iff.mp hkey) with hfresh | hold
      · exact (hnew key hfresh).2
      · exact hpacket.subset (h.known key hold)
  · exact h

theorem ExploredOnce.step (h : ExploredOnce d) (action : HandlerInput × DiscoveryAction) :
    ExploredOnce (d.step env node action) := by
  unfold Discovery.step
  split_ifs
  · exact h
  · obtain ⟨input, action⟩ := action
    by_cases haction : ∃ data sender, action = .receive data sender
    · obtain ⟨data, sender, rfl⟩ := haction
      exact h.receive input data sender
    · exact h.passes (passes_act (fun data sender heq => haction ⟨data, sender, heq⟩) d)

/-- **An endpoint is explored once**, in every run: whatever NEIGHBOURS packets arrive, however often they name a node
and whatever becomes of its task, no endpoint has two tasks, and the callback is called at most once for it. -/
theorem endpoints_explored_once (env : RequestPrimitives) (node : LocalNode) (config : Discv4Config)
    (actions : List (HandlerInput × DiscoveryAction)) :
    (run env node config actions).exploring.Nodup ∧
      ((run env node config actions).trace.filterMap Event.reported?).Nodup := by
  have honce : ExploredOnce (run env node config actions) := by
    induction actions using List.reverseRecOn with
    | nil => exact ⟨List.nodup_nil, fun key hkey => absurd hkey List.not_mem_nil⟩
    | append_singleton actions action ih =>
        rw [run_concat]
        exact ih.step action
  have hsub : ((run env node config actions).trace.filterMap Event.reported?).Sublist
      (run env node config actions).exploring := by
    unfold exploring
    exact (List.sublist_append_right _ _).trans (List.sublist_append_right _ _)
  exact ⟨honce.nodup, hsub.nodup honce.nodup⟩

end

end Discovery

end DevP2P.Discv4
