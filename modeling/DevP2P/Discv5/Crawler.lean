import DevP2P.Discv5.Messages
import Mathlib.Data.Finset.Insert

/-!
# The peer table (`discv5/discv5_crawler.cpp`)

What the packet handler and the query tasks do to the crawler: `markMeasured`, `markFailed` and
`ingestDiscoveredPeers`; and what the query loop and the seeds do: `dequeueNext` and `processFoundPeers`.
A node id is its own key, the sets of keys being sets of node ids.
-/

namespace DevP2P.Discv5
open DevP2P.Lib

structure Crawler where
  requiredForkId : Option ForkId
  queuedPeers : List ValidatedPeer
  measuredIds : Finset NodeId
  failedIds : Finset NodeId
  discoveredIds : Finset NodeId
  statDiscovered : Nat
  statWrongChain : Nat
  statNoEthEntry : Nat
  statDuplicates : Nat
  /-- The peers that the callback was called with, in order. -/
  emitted : List ValidatedPeer
deriving DecidableEq

namespace Crawler

def markMeasured (c : Crawler) (nodeId : NodeId) : Crawler :=
  { c with measuredIds := insert nodeId c.measuredIds }

def markFailed (c : Crawler) (nodeId : NodeId) : Crawler :=
  { c with failedIds := insert nodeId c.failedIds }

/-- The end of `emit_peer`, behind the fork-id filter. -/
def emitOnce (c : Crawler) (peer : ValidatedPeer) : Crawler :=
  if peer.nodeId ∈ c.discoveredIds then { c with statDuplicates := c.statDuplicates + 1 }
  else { c with
    discoveredIds := insert peer.nodeId c.discoveredIds
    statDiscovered := c.statDiscovered + 1
    emitted := c.emitted ++ [peer] }

def emitPeer (c : Crawler) (peer : ValidatedPeer) : Crawler :=
  match c.requiredForkId with
  | none => c.emitOnce peer
  | some required => match peer.ethForkId with
    | none => { c with statNoEthEntry := c.statNoEthEntry + 1 }
    | some actual =>
      if required ≠ actual then { c with statWrongChain := c.statWrongChain + 1 } else c.emitOnce peer

def isQueued (c : Crawler) (nodeId : NodeId) : Bool := c.queuedPeers.any fun queued => queued.nodeId = nodeId

/-- One turn of the loop of `ingest_discovered_peers`. -/
def ingestPeer (c : Crawler) (peer : ValidatedPeer) : Crawler :=
  if peer.nodeId ∈ c.discoveredIds then { c with statDuplicates := c.statDuplicates + 1 }
  else if c.isQueued peer.nodeId then c.emitPeer peer
  else { c with queuedPeers := c.queuedPeers ++ [peer] }.emitPeer peer

def ingestDiscoveredPeers (c : Crawler) (peers : List ValidatedPeer) : Crawler := peers.foldl ingestPeer c

/-- One turn of the loop of `process_found_peers`. -/
def findPeer (c : Crawler) (peer : ValidatedPeer) : Crawler :=
  if peer.nodeId ∈ c.discoveredIds then { c with statDuplicates := c.statDuplicates + 1 }
  else if c.isQueued peer.nodeId then { c with statDuplicates := c.statDuplicates + 1 }
  else { c with queuedPeers := c.queuedPeers ++ [peer] }

def processFoundPeers (c : Crawler) (peers : List ValidatedPeer) : Crawler := peers.foldl findPeer c

def dequeueNext (c : Crawler) : Option ValidatedPeer × Crawler :=
  match c.queuedPeers with
  | [] => (none, c)
  | peer :: rest => (some peer, { c with queuedPeers := rest })

def new (requiredForkId : Option ForkId) : Crawler := ⟨requiredForkId, [], ∅, ∅, ∅, 0, 0, 0, 0, []⟩

/-! ## What is put into the queue -/

/-- A peer is put into the queue if its node is neither discovered nor in the queue. -/
def Admits (c : Crawler) (peer : ValidatedPeer) : Prop := peer.nodeId ∉ c.discoveredIds ∧ c.isQueued peer.nodeId = false

instance (c : Crawler) (peer : ValidatedPeer) : Decidable (c.Admits peer) := inferInstanceAs (Decidable (_ ∧ _))

theorem isQueued_iff {c : Crawler} {nodeId : NodeId} :
    c.isQueued nodeId = true ↔ nodeId ∈ c.queuedPeers.map (·.nodeId) := by
  simp [isQueued]

theorem Admits.notMem_queue {c : Crawler} {peer : ValidatedPeer} (h : c.Admits peer) :
    peer.nodeId ∉ c.queuedPeers.map (·.nodeId) := by
  rw [← isQueued_iff, h.2]
  exact Bool.false_ne_true

/-- `emit_peer` changes the discovered nodes, the counters and the output. -/
theorem exists_emitPeer_eq (c : Crawler) (peer : ValidatedPeer) :
    ∃ ids discovered wrongChain noEthEntry duplicates emitted,
    c.emitPeer peer = { c with
      discoveredIds := ids, statDiscovered := discovered, statWrongChain := wrongChain, statNoEthEntry := noEthEntry,
      statDuplicates := duplicates, emitted := emitted } := by
  unfold emitPeer emitOnce
  split
  · split <;> exact ⟨_, _, _, _, _, _, rfl⟩
  · split
    · exact ⟨_, _, _, _, _, _, rfl⟩
    · split
      · exact ⟨_, _, _, _, _, _, rfl⟩
      · split <;> exact ⟨_, _, _, _, _, _, rfl⟩

theorem queuedPeers_emitPeer (c : Crawler) (peer : ValidatedPeer) : (c.emitPeer peer).queuedPeers = c.queuedPeers := by
  obtain ⟨_, _, _, _, _, _, heq⟩ := c.exists_emitPeer_eq peer
  rw [heq]

theorem measuredIds_emitPeer (c : Crawler) (peer : ValidatedPeer) : (c.emitPeer peer).measuredIds = c.measuredIds := by
  obtain ⟨_, _, _, _, _, _, heq⟩ := c.exists_emitPeer_eq peer
  rw [heq]

theorem findPeer_of_admits {c : Crawler} {peer : ValidatedPeer} (h : c.Admits peer) :
    c.findPeer peer = { c with queuedPeers := c.queuedPeers ++ [peer] } := by
  unfold findPeer
  rw [if_neg h.1, h.2, if_neg Bool.false_ne_true]

theorem findPeer_of_not_admits {c : Crawler} {peer : ValidatedPeer} (h : ¬ c.Admits peer) :
    c.findPeer peer = { c with statDuplicates := c.statDuplicates + 1 } := by
  unfold findPeer
  by_cases hdiscovered : peer.nodeId ∈ c.discoveredIds
  · exact if_pos hdiscovered
  · rw [if_neg hdiscovered, if_pos (Bool.of_not_eq_false fun hqueued => h ⟨hdiscovered, hqueued⟩)]

/-- The locked part of a turn of `ingest_discovered_peers`. -/
def queueNew (c : Crawler) (peer : ValidatedPeer) : Crawler :=
  if c.Admits peer then { c with queuedPeers := c.queuedPeers ++ [peer] } else c

theorem ingestPeer_of_discovered {c : Crawler} {peer : ValidatedPeer} (h : peer.nodeId ∈ c.discoveredIds) :
    c.ingestPeer peer = { c with statDuplicates := c.statDuplicates + 1 } := if_pos h

theorem ingestPeer_of_not_discovered {c : Crawler} {peer : ValidatedPeer} (h : peer.nodeId ∉ c.discoveredIds) :
    c.ingestPeer peer = (c.queueNew peer).emitPeer peer := by
  unfold ingestPeer queueNew
  rw [if_neg h]
  by_cases hadmits : c.Admits peer
  · rw [if_pos hadmits, hadmits.2, if_neg Bool.false_ne_true]
  · rw [if_neg hadmits, if_pos (Bool.of_not_eq_false fun hqueued => hadmits ⟨h, hqueued⟩)]

theorem queuedPeers_ingestPeer_of_admits {c : Crawler} {peer : ValidatedPeer} (h : c.Admits peer) :
    (c.ingestPeer peer).queuedPeers = c.queuedPeers ++ [peer] := by
  rw [ingestPeer_of_not_discovered h.1, queuedPeers_emitPeer, queueNew, if_pos h]

theorem queuedPeers_ingestPeer_of_not_admits {c : Crawler} {peer : ValidatedPeer} (h : ¬ c.Admits peer) :
    (c.ingestPeer peer).queuedPeers = c.queuedPeers := by
  by_cases hdiscovered : peer.nodeId ∈ c.discoveredIds
  · rw [ingestPeer_of_discovered hdiscovered]
  · rw [ingestPeer_of_not_discovered hdiscovered, queuedPeers_emitPeer, queueNew, if_neg h]

end Crawler

end DevP2P.Discv5
