import DevP2P.Discv5.CrawlerCalls
import DevP2P.Lib.Fifo

/-!
# Which nodes are handed out

`dequeue_next` takes a peer from the queue and keeps no record of it. A node that was handed out and is not discovered
(a seed, or a node that the fork-id filter holds back) is put into the queue again as soon as it is heard of.

* `fifo_turn` : the queue is first in, first out, and admits a peer whose node is neither discovered nor in the queue;
* `NotHeardAgain` : no node that was handed out and is not discovered is heard of early enough to be handed out again;
* `handed_out_once_iff` : this is when every node is handed out at most once.
-/

namespace DevP2P.Discv5
open DevP2P.Lib

theorem fifo_turn : Fifo Crawler.turn Crawler.queuedPeers Turn.peer Crawler.Admits := by
  refine ⟨?_, ?_, ?_⟩
  · intro c t peer ht hadmits
    cases t with
    | find p =>
        obtain rfl := Option.some.inj ht
        refine ⟨?_, rfl⟩
        show (c.findPeer p).queuedPeers = c.queuedPeers ++ [p]
        rw [Crawler.findPeer_of_admits hadmits]
    | ingest p =>
        obtain rfl := Option.some.inj ht
        exact ⟨Crawler.queuedPeers_ingestPeer_of_admits hadmits, rfl⟩
    | dequeue => cases ht
  · intro c t peer ht hadmits
    cases t with
    | find p =>
        obtain rfl := Option.some.inj ht
        refine ⟨?_, rfl⟩
        show (c.findPeer p).queuedPeers = c.queuedPeers
        rw [Crawler.findPeer_of_not_admits hadmits]
    | ingest p =>
        obtain rfl := Option.some.inj ht
        exact ⟨Crawler.queuedPeers_ingestPeer_of_not_admits hadmits, rfl⟩
    | dequeue => cases ht
  · intro c t ht
    cases t with
    | find p => cases ht
    | ingest p => cases ht
    | dequeue =>
        simp only [Crawler.turn, Crawler.dequeueNext]
        cases hqueue : c.queuedPeers with
        | nil => exact ⟨hqueue, rfl⟩
        | cons peer rest => exact ⟨rfl, rfl⟩

def crawlerAfter (requiredForkId : Option ForkId) (turns : List Turn) : Crawler :=
  (runEffects Crawler.turn (.new requiredForkId) turns).1

def handedOut (requiredForkId : Option ForkId) (turns : List Turn) : List ValidatedPeer :=
  (runEffects Crawler.turn (.new requiredForkId) turns).2

/-- A node that was handed out and is neither discovered nor in the queue is heard of again only when fewer peers will
be asked for than would have to be until its turn. -/
def NotHeardAgain (requiredForkId : Option ForkId) (turns : List Turn) : Prop :=
  ∀ pre turn peer post, turns = pre ++ turn :: post → turn.peer = some peer →
    peer.nodeId ∈ (handedOut requiredForkId pre).map (·.nodeId) →
    peer.nodeId ∉ (crawlerAfter requiredForkId pre).discoveredIds →
    peer.nodeId ∉ (crawlerAfter requiredForkId pre).queuedPeers.map (·.nodeId) →
    pops Turn.peer post ≤ (crawlerAfter requiredForkId pre).queuedPeers.length

theorem Crawler.admits_iff {c : Crawler} {peer : ValidatedPeer} :
    c.Admits peer ↔ peer.nodeId ∉ c.discoveredIds ∧ peer.nodeId ∉ c.queuedPeers.map (·.nodeId) := by
  rw [← isQueued_iff, Bool.not_eq_true]
  rfl

/-- **Each node is returned by `dequeue_next` at most once exactly in the sequences of calls in which no node that was
handed out and is not discovered is heard of again, with enough calls of `dequeue_next` to follow.** -/
theorem handed_out_once_iff (env : EnrPrimitives) (requiredForkId : Option ForkId) (bootstrapEnrs : List Bytes)
    (calls : List CrawlerCall) :
    (((Discv5Crawler.new requiredForkId bootstrapEnrs).returned env calls).map (·.nodeId)).Nodup ↔
      NotHeardAgain requiredForkId ((Discv5Crawler.new requiredForkId bootstrapEnrs).heard env calls) := by
  rw [Discv5Crawler.returned_eq, fifo_turn.nodup_iff (·.nodeId) Crawler.Admits.notMem_queue rfl]
  constructor
  · intro h pre turn peer post hturns hpeer hout hdiscovered hqueued
    exact h pre turn peer post hturns hpeer (Crawler.admits_iff.mpr ⟨hdiscovered, hqueued⟩) hout
  · intro h pre turn peer post hturns hpeer hadmits hout
    obtain ⟨hdiscovered, hqueued⟩ := Crawler.admits_iff.mp hadmits
    exact h pre turn peer post hturns hpeer hout hdiscovered hqueued

/-- A node of another chain. -/
def strangePeer : ValidatedPeer := ⟨.zero _, [10, 0, 0, 1], 9000, 30303, none⟩

/-- **A node is handed out twice**: one that was found twice, without a fork id configured, and one that was ingested
twice and held back by the filter, with one. -/
theorem node_handed_out_twice :
    (∀ env, (Discv5Crawler.new none []).returned env
      [.start, .processFoundPeers [strangePeer], .dequeueNext, .processFoundPeers [strangePeer], .dequeueNext]
        = [strangePeer, strangePeer]) ∧
    ∀ env, (Discv5Crawler.new (some ⟨.zero _, 0⟩) []).returned env
      [.start, .ingestDiscoveredPeers [strangePeer], .dequeueNext, .ingestDiscoveredPeers [strangePeer], .dequeueNext]
        = [strangePeer, strangePeer] :=
  ⟨fun _ => rfl, fun _ => rfl⟩

end DevP2P.Discv5
