import DevP2P.Discv5.SessionTable

/-!
# Which nodes are measured

The set of measured nodes is to hold those that have answered a request. `handle_packet` adds the node of a session on
which a NODES message has come in, and the task that the crawler loop spawns adds the node of its request as soon as the
socket has taken it.

* `issueQueries` : a round of the crawler loop (`crawler_loop` of `discv5/discv5_client.cpp`);
* `CrawlAction`, `crawlStep` : one step of a client with its loop; `Mark`, `marks` : what a step says about a node;
* `mem_measuredIds_step`, `mem_measuredIds_crawl` : the measured nodes are those that were asked or have answered;
* `measured_answered_iff` : when each measured node has answered.
-/

namespace DevP2P.Discv5
open DevP2P.Lib DevP2P.Rlp

/-! ## The crawler loop -/

/-- The inner loop of `crawler_loop`, with room for `n` more requests: for each peer that is taken from the queue, a
request is spawned. -/
def issueQueries : Nat → Discv5Client → Discv5Client
  | 0, c => c
  | n + 1, c => match c.crawler.dequeueNext with
    | (none, _) => c
    | (some peer, crawler) => issueQueries n { c with crawler, tasks := c.tasks ++ [.query peer] }

inductive CrawlAction
  | receive (data : Bytes) (sender : Endpoint)
  /-- A round of the crawler loop. -/
  | round
  /-- The waiting task at the index is run. -/
  | runTask (index : Nat) (input : TaskInput)

inductive Mark
  /-- The socket has taken a request of the crawler loop to the node. -/
  | queried (nodeId : NodeId)
  /-- A NODES message was accepted on a session with the node. -/
  | answered (nodeId : NodeId)
deriving DecidableEq

variable (env : ClientPrimitives) (maxConcurrentQueries : Nat)

def crawlStep (c : Discv5Client) : CrawlAction → Option Discv5Client
  | .receive data sender => c.step env (.receive data sender)
  | .round => some (issueQueries maxConcurrentQueries c)
  | .runTask index input => c.step env (.runTask index input)

/-- The mark of a NODES message that was ingested from the session under its key. -/
def answerMark (c : Discv5Client) : ClientEvent → Option Mark
  | .ingested key _ _ => (c.sessions.lookup key).map fun session => .answered session.remoteNodeId
  | _ => none

def marks (c : Discv5Client) : CrawlAction → List Mark
  | .receive data sender => (packetEvents env data sender c).filterMap (answerMark c)
  | .round => []
  | .runTask index input => match c.tasks[index]? with
    | some (.query peer) =>
      if Stateful.succeeds (sendFindnode env input peer { c with
        tasks := c.tasks.eraseIdx index }) then [.queried peer.nodeId] else []
    | _ => []

/-- One step, with its marks; a client whose record parser has read outside an object is gone. -/
def crawlCall : Option Discv5Client → CrawlAction → Option Discv5Client × List Mark
  | none, _ => (none, [])
  | some c, a => match crawlStep env maxConcurrentQueries c a with
    | none => (none, [])
    | some c' => (some c', marks env c a)

def crawl (c : Discv5Client) (actions : List CrawlAction) : Option Discv5Client :=
  (runEffects (crawlCall env maxConcurrentQueries) (some c) actions).1

def crawlMarks (c : Discv5Client) (actions : List CrawlAction) : List Mark :=
  (runEffects (crawlCall env maxConcurrentQueries) (some c) actions).2

/-! ## The peer table -/

theorem Crawler.measuredIds_ingestDiscoveredPeers (t : Crawler) (peers : List ValidatedPeer) :
    (t.ingestDiscoveredPeers peers).measuredIds = t.measuredIds := by
  unfold ingestDiscoveredPeers
  induction peers generalizing t with
  | nil => rfl
  | cons peer peers ih =>
      rw [List.foldl_cons, ih]
      unfold ingestPeer
      split_ifs
      · rfl
      · exact measuredIds_emitPeer t peer
      · exact measuredIds_emitPeer _ peer

theorem measuredIds_issueQueries (n : Nat) (c : Discv5Client) :
    (issueQueries n c).crawler.measuredIds = c.crawler.measuredIds := by
  induction n generalizing c with
  | zero => rfl
  | succ n ih =>
      unfold issueQueries Crawler.dequeueNext
      cases c.crawler.queuedPeers with
      | nil => rfl
      | cons peer rest => exact ih _

/-! ## Steps -/

section Steps

variable {env maxConcurrentQueries} {c c' : Discv5Client}

theorem mem_measuredIds_receive {data : Bytes} {sender : Endpoint} (h : handlePacket env data sender c = some c')
    (id : NodeId) :
    id ∈ c'.crawler.measuredIds ↔
      id ∈ c.crawler.measuredIds ∨ Mark.answered id ∈ (packetEvents env data sender c).filterMap (answerMark c) := by
  rcases handlePacket_cases h with ⟨hevents, hframe⟩ | ⟨session, nodes, hlookup, -, hevents, hframe⟩ |
    ⟨packet, session, -, -, -, hevents, hframe⟩
  · rw [hevents, hframe.crawler]
    simp
  · rw [hevents, hframe.crawler]
    simp [ingesting, Crawler.measuredIds_ingestDiscoveredPeers, Crawler.markMeasured, answerMark, hlookup, or_comm]
  · have hcrawler : c'.crawler = c.crawler := by
      rcases hframe with hframe | ⟨reqId, hframe⟩ <;> exact hframe.crawler
    rw [hevents, hcrawler]
    simp [answerMark]

theorem crawler_sendFindnode (input : TaskInput) (peer : ValidatedPeer) :
    (Stateful.finalState (sendFindnode env input peer c)).crawler = c.crawler := by
  rcases @sendFindnode_cases env input peer c with ⟨-, hframe⟩ | ⟨session, -, -, hframe⟩ | ⟨pending, handshake, -, -,
    -, -, -, hframe⟩
  all_goals exact hframe.crawler

theorem measuredIds_of_outcome {r : EStateM.Result Discv5Error Discv5Client Unit}
    (h : (Stateful.finalState r).crawler = c.crawler)
    {f : Discv5Client → Discv5Client} (hf : ∀ d, (f d).crawler.measuredIds = d.crawler.measuredIds) :
    (match r with
      | .ok _ d => d
      | .error _ d => f d).crawler.measuredIds = c.crawler.measuredIds := by
  cases r with
  | ok u d => exact congrArg Crawler.measuredIds h
  | error e d => exact (hf d).trans (congrArg Crawler.measuredIds h)

theorem measuredIds_runTask (input : TaskInput) (task : Task) :
    (Discv5.runTask env input task c).crawler.measuredIds = match task with
      | .query peer =>
        if Stateful.succeeds (sendFindnode env input peer c) then insert peer.nodeId c.crawler.measuredIds
        else c.crawler.measuredIds
      | _ => c.crawler.measuredIds := by
  cases task with
  | query peer =>
      have hcrawler := @crawler_sendFindnode env c input peer
      simp only [Discv5.runTask]
      cases hsend : sendFindnode env input peer c with
      | ok u d =>
          rw [hsend] at hcrawler
          exact congrArg (fun t => insert peer.nodeId t.measuredIds) hcrawler
      | error e d =>
          rw [hsend] at hcrawler
          have hmeasured : d.crawler.measuredIds = c.crawler.measuredIds := congrArg Crawler.measuredIds hcrawler
          exact hmeasured
  | retry peer => exact measuredIds_of_outcome (crawler_sendFindnode input peer) (f := noteFailure peer) fun _ => rfl
  | sendWhoareyou sender remoteNodeAddr requestNonce =>
      exact measuredIds_of_outcome (frame_sendWhoareyou sender remoteNodeAddr requestNonce).crawler (f := id) fun _ =>
        rfl
  | handleFindnodeRequest reqId sender =>
      exact measuredIds_of_outcome (frame_handleFindnodeRequest reqId sender).crawler (f := id) fun _ => rfl

theorem mem_measuredIds_runTask {index : Nat} {input : TaskInput} (h : c.step env (.runTask index input) = some c')
    (id : NodeId) :
    id ∈ c'.crawler.measuredIds ↔ id ∈ c.crawler.measuredIds ∨
      Mark.queried id ∈ marks env c (.runTask index input) := by
  cases htask : c.tasks[index]? with
  | none =>
      simp only [Discv5Client.step, htask, Option.some.injEq] at h
      subst h
      simp [marks, htask]
  | some task =>
      simp only [Discv5Client.step, htask, Option.some.injEq] at h
      subst h
      rw [measuredIds_runTask]
      cases task with
      | query peer =>
          simp only [marks, htask]
          split_ifs with hsent
          · simp [or_comm]
          · simp
      | _ => simp [marks, htask]

/-- **What a step does to the measured nodes.** -/
theorem mem_measuredIds_step {a : CrawlAction} (h : crawlStep env maxConcurrentQueries c a = some c') (id : NodeId) :
    id ∈ c'.crawler.measuredIds ↔
      id ∈ c.crawler.measuredIds ∨ Mark.queried id ∈ marks env c a ∨ Mark.answered id ∈ marks env c a := by
  cases a with
  | receive data sender =>
      have hquiet : Mark.queried id ∉ marks env c (.receive data sender) := by
        simp only [marks, List.mem_filterMap, not_exists, not_and]
        intro event _
        cases event <;> simp [answerMark]
      rw [mem_measuredIds_receive h id, or_iff_right hquiet]
      rfl
  | round =>
      obtain rfl := Option.some.inj h
      simp [measuredIds_issueQueries, marks]
  | runTask index input =>
      have hquiet : Mark.answered id ∉ marks env c (.runTask index input) := by
        simp only [marks]
        split
        · split_ifs <;> simp
        · simp
      rw [mem_measuredIds_runTask h id, or_iff_left hquiet]

end Steps

/-! ## Runs -/

/-- The measured nodes of a client, as long as it is there, are those with a mark. -/
def Marked (client : Option Discv5Client) (ms : List Mark) : Prop :=
  ∀ c, client = some c → ∀ id, id ∈ c.crawler.measuredIds ↔ Mark.queried id ∈ ms ∨ Mark.answered id ∈ ms

variable {env maxConcurrentQueries}

theorem Marked.call {client : Option Discv5Client} {ms : List Mark} (h : Marked client ms) (a : CrawlAction) :
    Marked (crawlCall env maxConcurrentQueries client a).1 (ms ++ (crawlCall env maxConcurrentQueries client a).2) := by
  cases client with
  | none =>
      intro c' hc'
      cases hc'
  | some c =>
      simp only [crawlCall]
      cases hstep : crawlStep env maxConcurrentQueries c a with
      | none =>
          intro c' hc'
          cases hc'
      | some d =>
          intro c' hc' id
          obtain rfl := Option.some.inj hc'
          rw [mem_measuredIds_step hstep id, h c rfl id, List.mem_append, List.mem_append]
          tauto

/-- **The measured nodes of a run.** They are those that the loop has asked and those that have answered. -/
theorem mem_measuredIds_crawl {c c' : Discv5Client} {actions : List CrawlAction} (hfresh : c.crawler.measuredIds = ∅)
    (hrun : crawl env maxConcurrentQueries c actions = some c') (id : NodeId) :
    id ∈ c'.crawler.measuredIds ↔ Mark.queried id ∈ crawlMarks env maxConcurrentQueries c actions ∨
      Mark.answered id ∈ crawlMarks env maxConcurrentQueries c actions := by
  have hstart : Marked (some c) [] := by
    intro d hd id
    obtain rfl := Option.some.inj hd
    simp [hfresh]
  have hmarked : Marked (crawl env maxConcurrentQueries c actions)
      ([] ++ crawlMarks env maxConcurrentQueries c actions) :=
    runEffects_invariant (fun a _ _ _ h => h.call a) hstart
  exact hmarked c' hrun id

/-- **When measured means answered.** Each measured node has answered exactly if each node to which the loop has sent a
request has. -/
theorem measured_answered_iff (env : ClientPrimitives) (maxConcurrentQueries : Nat) (config : Discv5Config)
    (boundPort : Option UInt16)
    (crawler : Crawler) (hfresh : crawler.measuredIds = ∅) (actions : List CrawlAction) {c : Discv5Client}
    (hrun : crawl env maxConcurrentQueries (.new config boundPort crawler) actions = some c) :
    (∀ id ∈ c.crawler.measuredIds,
        Mark.answered id ∈ crawlMarks env maxConcurrentQueries (.new config boundPort crawler) actions) ↔
      ∀ id, Mark.queried id ∈ crawlMarks env maxConcurrentQueries (.new config boundPort crawler) actions →
        Mark.answered id ∈ crawlMarks env maxConcurrentQueries (.new config boundPort crawler) actions := by
  have hmeasured := mem_measuredIds_crawl (c := .new config boundPort crawler) hfresh hrun
  constructor
  · intro h id hqueried
    exact h id ((hmeasured id).mpr (.inl hqueried))
  · intro h id hid
    rcases (hmeasured id).mp hid with hqueried | hanswered
    · exact h id hqueried
    · exact hanswered

/-- A peer table with one peer in the queue. -/
def queuedCrawler : Crawler := ⟨none, [plainPeer 1], ∅, ∅, ∅, 0, 0, 0, 0, []⟩

/-- A round of the loop, and the request it has spawned. -/
def askingRun : List CrawlAction := [.round, .runTask 0 plainInput]

/-- The node challenges the request, is sent it again with a handshake, and answers it. -/
def answeredRun : List CrawlAction := askingRun ++
  [.receive (plainPacket kFlagWhoareyou (List.replicate 16 0 ++ appendU64be 1) []) plainEndpoint, .runTask 0 plainInput,
    .receive (plainPacket kFlagMessage (List.replicate 32 1) (kMsgNodes ::
      (Item.list [.string (findnodeReqId (plainPeer 1)), .string [1], .list []]).encode ++
      List.replicate 16 0)) plainEndpoint]

theorem answered_node_is_measured : ∃ c,
    crawl plainEnv 3 (.new plainClient.config plainClient.boundPort queuedCrawler) answeredRun = some c ∧
    (plainPeer 1).nodeId ∈ c.crawler.measuredIds ∧
    ∀ id ∈ c.crawler.measuredIds,
      Mark.answered id ∈ crawlMarks plainEnv 3 (.new plainClient.config plainClient.boundPort queuedCrawler)
        answeredRun := by
  have hmarks : crawlMarks plainEnv 3 (.new plainClient.config plainClient.boundPort queuedCrawler) answeredRun
      = [.queried (plainPeer 1).nodeId, .answered (plainPeer 1).nodeId] := by decide +kernel
  have hmeasured : (crawl plainEnv 3 (.new plainClient.config plainClient.boundPort queuedCrawler) answeredRun).map
      (fun c => decide ((plainPeer 1).nodeId ∈ c.crawler.measuredIds)) = some true := by decide +kernel
  obtain ⟨c, hrun, hid⟩ := Option.map_eq_some_iff.mp hmeasured
  refine ⟨c, hrun, of_decide_eq_true hid,
    (measured_answered_iff plainEnv 3 plainClient.config plainClient.boundPort queuedCrawler rfl answeredRun hrun).mpr
    ?_⟩
  intro id hqueried
  rw [hmarks] at hqueried ⊢
  simpa using hqueried

/-- **A node is measured because it was asked.** No packet has come in. -/
theorem asked_node_is_measured : ∃ c,
    crawl plainEnv 3 (.new plainClient.config plainClient.boundPort queuedCrawler) askingRun = some c ∧
    (plainPeer 1).nodeId ∈ c.crawler.measuredIds ∧
    crawlMarks plainEnv 3 (.new plainClient.config plainClient.boundPort queuedCrawler) askingRun
      = [.queried (plainPeer 1).nodeId] := by
  have hmeasured : (crawl plainEnv 3 (.new plainClient.config plainClient.boundPort queuedCrawler) askingRun).map
      (fun c => decide ((plainPeer 1).nodeId ∈ c.crawler.measuredIds)) = some true := by decide +kernel
  obtain ⟨c, hrun, hid⟩ := Option.map_eq_some_iff.mp hmeasured
  exact ⟨c, hrun, of_decide_eq_true hid, by decide +kernel⟩

end DevP2P.Discv5
