import DevP2P.Eth.Objects

/-!
# Filters of logs (`eth/event_filter.cpp`, `eth/event_filter.hpp`)

* `EventFilter.matches` : the block range, the emitting contract and the topics;
* `EventWatcher` : filters with their callbacks; a callback is any value, and what the watcher does with a log is the
  list of the callbacks it calls, with the event it passes to each;
* `processBlockLogs`, `processReceipt` : the logs of a block, and of one receipt; `dispatchFrom_eq` : the events of
  every log with its position.
-/

namespace DevP2P.Eth
open DevP2P.Lib DevP2P.Rlp

abbrev Uint32 := UIntTy.Val .uint32
abbrev WatchId := Uint32

structure EventFilter where
  /-- The contracts to watch; none means any. -/
  addresses : List Address
  /-- What is required of the topics, position by position. -/
  topics : List (Option Hash256)
  fromBlock : Option Uint64
  toBlock : Option Uint64
deriving DecidableEq

/-- The body of the loop over the topics: a position without a requirement is skipped. -/
def topicMatches (log : LogEntry) (topic : Option Hash256) (i : Nat) : Bool :=
  match topic with
  | none => true
  | some required =>
    if i ≥ log.topics.length then false
    else log.topics.getD i default = required

def EventFilter.matches (filter : EventFilter) (log : LogEntry) (block : Uint64) : Bool :=
  if filter.fromBlock.any fun fromBlock => block < fromBlock then false
  else if filter.toBlock.any fun toBlock => block > toBlock then false
  else if ¬ filter.addresses.isEmpty ∧ log.address ∉ filter.addresses then false
  else filter.topics.zipIdx.all fun (topic, i) => topicMatches log topic i

structure MatchedEvent where
  log : LogEntry
  blockNumber : Uint64
  blockHash : Hash256
  txHash : Hash256
  logIndex : Uint32
deriving DecidableEq

structure FilterSubscription (γ : Type) where
  id : WatchId
  filter : EventFilter
  callback : γ

structure EventWatcher (γ : Type) where
  subscriptions : List (FilterSubscription γ) := []
  nextId : WatchId := 1

namespace EventWatcher

variable {γ : Type}

def watch (w : EventWatcher γ) (filter : EventFilter) (callback : γ) : EventWatcher γ :=
  { w with subscriptions := w.subscriptions ++ [⟨w.nextId, filter, callback⟩], nextId := w.nextId + 1 }

def unwatch (w : EventWatcher γ) (id : WatchId) : EventWatcher γ :=
  { w with subscriptions := w.subscriptions.filter fun sub => sub.id ≠ id }

/-- The loop over the subscriptions, for one log. -/
def matched (w : EventWatcher γ) (blockNumber : Uint64) (blockHash txHash : Hash256) (log : LogEntry)
    (logIndex : Uint32) :
    List (γ × MatchedEvent) :=
  (w.subscriptions.filter fun sub => sub.filter.matches log blockNumber).map fun sub =>
    (sub.callback, ⟨log, blockNumber, blockHash, txHash, logIndex⟩)

/-- The loop over the logs, from `logIndex` on. -/
def dispatchFrom (w : EventWatcher γ) (blockNumber : Uint64) (blockHash txHash : Hash256) :
    Uint32 → List LogEntry → List (γ × MatchedEvent)
  | _, [] => []
  | logIndex, log :: logs =>
    w.matched blockNumber blockHash txHash log logIndex ++ w.dispatchFrom blockNumber blockHash txHash
      (logIndex + 1) logs

/-- The transaction is not known here. -/
def processBlockLogs (w : EventWatcher γ) (logs : List LogEntry) (blockNumber : Uint64) (blockHash : Hash256) :
    List (γ × MatchedEvent) :=
  w.dispatchFrom blockNumber blockHash default 0 logs

def processReceipt (w : EventWatcher γ) (receipt : Receipt) (txHash : Hash256) (blockNumber : Uint64)
    (blockHash : Hash256) :
    List (γ × MatchedEvent) :=
  w.dispatchFrom blockNumber blockHash txHash 0 receipt.logs

theorem dispatchFrom_eq (w : EventWatcher γ) (blockNumber : Uint64) (blockHash txHash : Hash256)
    (logs : List LogEntry) (k : Nat) :
    w.dispatchFrom blockNumber blockHash txHash (BitVec.ofNat _ k) logs =
      (logs.zipIdx k).flatMap fun (log, i) => w.matched blockNumber blockHash txHash log (BitVec.ofNat _ i) := by
  induction logs generalizing k with
  | nil => rfl
  | cons log logs ih =>
      have hnext : (BitVec.ofNat _ k : Uint32) + 1 = BitVec.ofNat _ (k + 1) := by
        rw [BitVec.ofNat_add]
        rfl
      rw [dispatchFrom, hnext, ih, List.zipIdx_cons, List.flatMap_cons]

theorem mem_matched {w : EventWatcher γ} {blockNumber : Uint64} {blockHash txHash : Hash256} {log : LogEntry}
    {logIndex : Uint32}
    {callback : γ} {event : MatchedEvent} (h : (callback, event) ∈
      w.matched blockNumber blockHash txHash log logIndex) :
    event = ⟨log, blockNumber, blockHash, txHash, logIndex⟩ := by
  obtain ⟨sub, -, heq⟩ := List.mem_map.mp h
  exact (Prod.mk.inj heq).2.symm

theorem block_of_mem_processReceipt {w : EventWatcher γ} {receipt : Receipt} {txHash : Hash256} {blockNumber : Uint64}
    {blockHash : Hash256} {callback : γ} {event : MatchedEvent}
    (h : (callback, event) ∈ w.processReceipt receipt txHash blockNumber blockHash) :
    event.blockNumber = blockNumber ∧ event.blockHash = blockHash := by
  unfold processReceipt at h
  rw [show (0 : Uint32) = BitVec.ofNat _ 0 from rfl, dispatchFrom_eq] at h
  obtain ⟨⟨log, i⟩, -, hmem⟩ := List.mem_flatMap.mp h
  rw [mem_matched hmem]
  exact ⟨rfl, rfl⟩

end EventWatcher

end DevP2P.Eth
