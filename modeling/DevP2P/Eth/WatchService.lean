import DevP2P.Eth.Abi
import DevP2P.Eth.ChainTracker
import DevP2P.Eth.EventFilter
import DevP2P.Eth.MessageRoundTrip
import DevP2P.Lib.Runs
import Mathlib.Data.List.AList

/-!
# The watch service (`eth/eth_watch_service.cpp`, `eth/eth_watch_service.hpp`)

The service asks for the receipts of announced blocks and passes the events in them to its subscribers. A callback is
any value: calls of callbacks are effects, in the order they are made, and callbacks do not call the service. A log that
the decoder reads outside its data ends the process: the decoder is `noexcept`.

* `Reaction`, `delivered` : what comes of an event, and what is delivered up to the first read outside;
* `EthWatchService`, `watchEvent`, `unwatch`, `requestReceipts`, `processReceipts`, `processMessage` : the operations;
* `Effect` : a message that is sent, with the call of `request_receipts` that sends it, or the receipts of one block,
  with the request whose block they are taken for and the events that are delivered;
* `Input`, `step`, `run` : sequences of calls of the service;
* `requestReceipts_cases`, `processBlock_cases` : all that a request and the receipts of one block can do; `Keeps` :
  what keeps a property of the service and its effects through all calls.
-/

namespace DevP2P.Eth
open DevP2P.Lib DevP2P.Rlp DevP2P.Eth.Abi

def kNewBlockHashesMessageId : UInt8 := 0x01
def kNewBlockMessageId : UInt8 := 0x07
def kGetReceiptsMessageId : UInt8 := 0x0f
def kReceiptsMessageId : UInt8 := 0x10

abbrev EventWatchId := WatchId

structure EventSubscription (κ : Type) where
  id : EventWatchId
  eventSignature : Bytes
  params : List AbiParam
  callback : κ

structure PendingRequest where
  blockHash : Hash256
  blockNumber : Uint64
deriving DecidableEq

/-- `std::map` from request ids. -/
abbrev PendingRequests := AList fun _ : Uint64 => PendingRequest

structure EthWatchService (κ : Type) where
  /-- Whether `send_cb_` is set. -/
  sendCb : Bool := false
  chainTracker : ChainTracker := .new kDefaultWindowSize
  /-- A callback that the service registers with its watcher is the id it captures. -/
  watcher : EventWatcher EventWatchId := {}
  subscriptions : List (EventSubscription κ) := []
  nextId : EventWatchId := 1
  nextReqId : Uint64 := 1
  pendingRequests : PendingRequests := ∅
  /-- A log was read outside its data: no callback is called any more. -/
  aborted : Bool := false

structure Delivery (κ : Type) where
  subscription : EventSubscription κ
  event : MatchedEvent
  values : List AbiValue

inductive Effect (κ : Type)
  /-- `send_cb_(ethMsgId, payload)`, from `request_receipts(blockHash, blockNumber)` with the request id `reqId`. -/
  | request (reqId : Uint64) (blockHash : Hash256) (blockNumber : Uint64) (ethMsgId : UInt8) (payload : ByteBuffer)
  /-- The receipts of one block, for the block of the pending request `source` if there is one. -/
  | receipts (source : Option Uint64) (blockHash : Hash256) (blockNumber : Uint64) (deliveries : List (Delivery κ))

/-- What comes of an event: `none` if the log is read outside its data, `some none` if there is nothing to deliver. -/
abbrev Reaction (α : Type) := Option (Option α)

def Reaction.map {α β : Type} (f : α → β) : Reaction α → Reaction β := Option.map (Option.map f)

/-- What is delivered before a log is read outside its data. -/
def delivered {α : Type} (rs : List (Reaction α)) : List α := (rs.takeWhile Option.isSome).filterMap Option.join

theorem delivered_map {α β : Type} (f : α → β) (rs : List (Reaction α)) :
    delivered (rs.map (Reaction.map f)) = (delivered rs).map f := by
  have hsome : Option.isSome ∘ Reaction.map f = Option.isSome := funext fun r => Option.isSome_map
  unfold delivered
  rw [List.takeWhile_map, hsome, List.filterMap_map, List.map_filterMap]
  apply List.filterMap_congr
  rintro ⟨_ | r⟩ _ <;> rfl

theorem Reaction.map_comp {α β γ : Type} (g : β → γ) (f : α → β) :
    Reaction.map g ∘ Reaction.map f = Reaction.map (g ∘ f) := by
  funext r
  rcases r with _ | _ | _ <;> rfl

theorem Reaction.exists_of_map {α β : Type} {f : α → β} {r : Reaction α} {b : β}
    (h : Reaction.map f r = some (some b)) :
    ∃ a, f a = b := by
  rcases r with _ | _ | a <;> cases h
  exact ⟨a, rfl⟩

theorem mem_of_mem_delivered {α : Type} {rs : List (Reaction α)} {a : α} (h : a ∈ delivered rs) :
    some (some a) ∈ rs := by
  obtain ⟨r, hr, hjoin⟩ := List.mem_filterMap.mp h
  rw [← Option.join_eq_some_iff.mp hjoin]
  exact (List.takeWhile_prefix _).subset hr

/-- The filter that `watch_event` registers. -/
def eventFilter (keccak256 : Bytes → Hash256) (contractAddress : Address) (eventSignature : Bytes)
    (fromBlock toBlock : Option Uint64) : EventFilter where
  addresses := if contractAddress ≠ default then [contractAddress] else []
  topics := [some (eventSignatureHash keccak256 eventSignature)]
  fromBlock := fromBlock
  toBlock := toBlock

namespace EthWatchService

variable {κ : Type}

def setSendCallback (s : EthWatchService κ) (cb : Bool) : EthWatchService κ := { s with sendCb := cb }

def watchEvent (keccak256 : Bytes → Hash256) (s : EthWatchService κ) (contractAddress : Address)
    (eventSignature : Bytes)
    (params : List AbiParam) (callback : κ) (fromBlock toBlock : Option Uint64) : EthWatchService κ :=
  let id := s.nextId
  let filter := eventFilter keccak256 contractAddress eventSignature fromBlock toBlock
  { s with
    nextId := s.nextId + 1
    subscriptions := s.subscriptions ++ [⟨id, eventSignature, params, callback⟩]
    watcher := s.watcher.watch filter id }

def unwatch (s : EthWatchService κ) (id : EventWatchId) : EthWatchService κ :=
  { s with
    subscriptions := s.subscriptions.filter fun sub => sub.id ≠ id
    watcher := s.watcher.unwatch id }

/-- The callback that `watch_event` registers with the watcher for the id `id`. -/
def onEvent (keccak256 : Bytes → Hash256) (s : EthWatchService κ) (id : EventWatchId) (event : MatchedEvent) :
    Reaction (Delivery κ) :=
  if s.aborted then none
  else
    match s.subscriptions.find? fun sub => sub.id = id with
    | none => some none
    | some sub =>
      match decodeLog keccak256 event.log sub.eventSignature sub.params with
      | .error .outOfBounds => none
      | .error (.error _) => some none
      | .ok values => some (some ⟨sub, event, values⟩)

def reactions (keccak256 : Bytes → Hash256) (s : EthWatchService κ) (calls : List (EventWatchId × MatchedEvent)) :
    List (Reaction (Delivery κ)) :=
  calls.map fun (id, event) => s.onEvent keccak256 id event

/-- The calls of the watcher as the callbacks of the subscriptions see them. -/
def deliver (keccak256 : Bytes → Hash256) (s : EthWatchService κ) (calls : List (EventWatchId × MatchedEvent)) :
    List (Delivery κ) :=
  delivered (s.reactions keccak256 calls)

def requestReceipts (s : EthWatchService κ) (blockHash : Hash256) (blockNumber : Uint64) :
    EthWatchService κ × List (Effect κ) :=
  if ¬ s.sendCb then (s, [])
  else
    let (isNew, chainTracker) := s.chainTracker.markSeen blockHash blockNumber
    let s := { s with chainTracker }
    if ¬ isNew then (s, [])
    else
      let reqId := s.nextReqId
      let s := { s with nextReqId := s.nextReqId + 1 }
      match encodeGetReceipts ⟨some reqId, [blockHash]⟩ with
      | .error _ => (s, [])
      | .ok encoded =>
        ({ s with pendingRequests := s.pendingRequests.insert reqId ⟨blockHash, blockNumber⟩ },
          [.request reqId blockHash blockNumber kGetReceiptsMessageId encoded])

def receiptCalls (s : EthWatchService κ) (receipts : List Receipt) (txHashes : List Hash256) (blockNumber : Uint64)
    (blockHash : Hash256) : List (EventWatchId × MatchedEvent) :=
  (receipts.zip txHashes).flatMap fun (receipt, txHash) => s.watcher.processReceipt receipt txHash blockNumber blockHash

def processReceipts (keccak256 : Bytes → Hash256) (s : EthWatchService κ) (receipts : List Receipt)
    (txHashes : List Hash256)
    (blockNumber : Uint64) (blockHash : Hash256) : List (Delivery κ) :=
  s.deliver keccak256 (s.receiptCalls receipts txHashes blockNumber blockHash)

/-- Whether `process_receipts` reads a log outside its data. -/
def readsOutside (keccak256 : Bytes → Hash256) (s : EthWatchService κ) (receipts : List Receipt)
    (txHashes : List Hash256)
    (blockNumber : Uint64) (blockHash : Hash256) : Bool :=
  (s.reactions keccak256 (s.receiptCalls receipts txHashes blockNumber blockHash)).any Option.isNone

/-- `process_receipts`, for the receipts that are taken for the block of the pending request `source`. -/
def handOut (keccak256 : Bytes → Hash256) (source : Option Uint64) (receipts : List Receipt) (txHashes : List Hash256)
    (blockNumber : Uint64) (blockHash : Hash256) (s : EthWatchService κ) : EthWatchService κ × List (Effect κ) :=
  ({ s with aborted := s.aborted || s.readsOutside keccak256 receipts txHashes blockNumber blockHash },
    [.receipts source blockHash blockNumber (s.processReceipts keccak256 receipts txHashes blockNumber blockHash)])

def processNewBlock (s : EthWatchService κ) (msg : NewBlockMessage) (blockHash : Hash256) :
    EthWatchService κ × List (Effect κ) :=
  s.requestReceipts blockHash msg.header.number

/-- The pending request that the receipts of a block of a response are taken for: the first block only. -/
def pendingFor (s : EthWatchService κ) (requestId : Option Uint64) (blockIdx : Nat) :
    Option (Uint64 × PendingRequest) :=
  match requestId with
  | none => none
  | some id => if blockIdx = 0 then (s.pendingRequests.lookup id).map fun pending => (id, pending) else none

/-- The body of the loop over the blocks of a response. -/
def processBlock (keccak256 : Bytes → Hash256) (requestId : Option Uint64) (s : EthWatchService κ)
    (block : List Receipt × Nat) :
    EthWatchService κ × List (Effect κ) :=
  let (blockReceipts, blockIdx) := block
  let txHashes := blockReceipts.map fun _ => default
  match s.pendingFor requestId blockIdx with
  | none => s.handOut keccak256 none blockReceipts txHashes 0 default
  | some (id, pending) =>
    let s := { s with pendingRequests := s.pendingRequests.erase id }
    s.handOut keccak256 (some id) blockReceipts txHashes pending.blockNumber pending.blockHash

def processMessage (keccak256 : Bytes → Hash256) (s : EthWatchService κ) (ethMsgId : UInt8) (payload : ByteView) :
    EthWatchService κ × List (Effect κ) :=
  if ethMsgId = kNewBlockHashesMessageId then
    match decodeNewBlockHashes payload with
    | .error _ => (s, [])
    | .ok msg => runEffects (fun s (entry : NewBlockHashEntry) =>
      s.requestReceipts entry.hash entry.number) s msg.entries
  else if ethMsgId = kNewBlockMessageId then
    match decodeNewBlock payload with
    | .error _ => (s, [])
    -- the hash of the block is not in the message
    | .ok msg => s.processNewBlock msg default
  else if ethMsgId = kReceiptsMessageId then
    match decodeReceipts payload with
    | .error _ => (s, [])
    | .ok msg => runEffects (processBlock keccak256 msg.requestId) s msg.receipts.zipIdx
  else (s, [])

end EthWatchService

/-! ## Sequences of calls -/

inductive Input (κ : Type)
  | setSendCallback (cb : Bool)
  | watchEvent (contractAddress : Address) (eventSignature : Bytes) (params : List AbiParam) (callback : κ)
      (fromBlock toBlock : Option Uint64)
  | unwatch (id : EventWatchId)
  | requestReceipts (blockHash : Hash256) (blockNumber : Uint64)
  | processMessage (ethMsgId : UInt8) (payload : ByteView)
  | processReceipts (receipts : List Receipt) (txHashes : List Hash256) (blockNumber : Uint64) (blockHash : Hash256)
  | processNewBlock (msg : NewBlockMessage) (blockHash : Hash256)

namespace EthWatchService

variable {κ : Type}

def step (keccak256 : Bytes → Hash256) (s : EthWatchService κ) : Input κ → EthWatchService κ × List (Effect κ)
  | .setSendCallback cb => (s.setSendCallback cb, [])
  | .watchEvent contractAddress eventSignature params callback fromBlock toBlock =>
    (s.watchEvent keccak256 contractAddress eventSignature params callback fromBlock toBlock, [])
  | .unwatch id => (s.unwatch id, [])
  | .requestReceipts blockHash blockNumber => s.requestReceipts blockHash blockNumber
  | .processMessage ethMsgId payload => s.processMessage keccak256 ethMsgId payload
  | .processReceipts receipts txHashes blockNumber blockHash =>
    s.handOut keccak256 none receipts txHashes blockNumber blockHash
  | .processNewBlock msg blockHash => s.processNewBlock msg blockHash

/-- A new service after the calls `inputs`, and all their effects. -/
def run (keccak256 : Bytes → Hash256) (inputs : List (Input κ)) : EthWatchService κ × List (Effect κ) :=
  runEffects (step keccak256) {} inputs

/-! ## What the operations do -/

variable (s : EthWatchService κ)

theorem length_getReceipts_encoding_lt (reqId : Uint64) (blockHash : Hash256) :
    (GetReceiptsMessage.encoding ⟨some reqId, [blockHash]⟩).length < 2 ^ 64 := by
  have hsized : ∀ f ∈ [hashField blockHash], f.Sized := by
    intro f hf
    rw [List.mem_singleton.mp hf]
    show blockHash.bytes.length < kSizeModulus
    rw [blockHash.size_eq]
    decide
  have hhash : (encodeFields [hashField blockHash]).length ≤ 100 := by
    apply (length_encodeFields_le_bound _ hsized).trans
    simp [hashField, Field.bound]
  have hid : (Field.number .uint64 reqId).encoding.length ≤ 41 := Field.length_encoding_le_bound trivial
  have hbound : 300 < kSizeModulus := by decide
  have hlist := length_encodeList_le (lt_of_le_of_lt hhash (by omega))
  have hpayload : ((Field.number .uint64 reqId).encoding ++ encodeList (encodeFields [hashField blockHash])).length ≤
      200 := by
    rw [List.length_append]
    omega
  have := length_encodeList_le (lt_of_le_of_lt hpayload (by omega))
  show (encodeList ((Field.number .uint64 reqId).encoding ++ encodeList (encodeFields [hashField blockHash]))).length <
    kSizeModulus
  omega

theorem encodeGetReceipts_request (reqId : Uint64) (blockHash : Hash256) :
    encodeGetReceipts ⟨some reqId, [blockHash]⟩ = .ok (GetReceiptsMessage.encoding ⟨some reqId, [blockHash]⟩) := by
  have hlt := length_getReceipts_encoding_lt reqId blockHash
  have hpayload : (hashListEncoding [blockHash]).length < kSizeModulus := by
    have := lt_of_le_of_lt (length_le_encodeList _) hlt
    rw [List.length_append] at this
    exact lt_of_le_of_lt (Nat.le_add_left _ _) this
  exact encodeEnvelope_eq (codes_hashList [blockHash] trivial hpayload).1 hlt

def afterRequest (blockHash : Hash256) (blockNumber : Uint64) : EthWatchService κ :=
  { s with
    chainTracker := (s.chainTracker.markSeen blockHash blockNumber).2
    nextReqId := s.nextReqId + 1
    pendingRequests := s.pendingRequests.insert s.nextReqId ⟨blockHash, blockNumber⟩ }

def requestEffect (blockHash : Hash256) (blockNumber : Uint64) : Effect κ :=
  .request s.nextReqId blockHash blockNumber kGetReceiptsMessageId
    (GetReceiptsMessage.encoding ⟨some s.nextReqId, [blockHash]⟩)

theorem requestReceipts_of_new {blockHash : Hash256} {blockNumber : Uint64} (hcb : s.sendCb = true)
    (hnew : (s.chainTracker.markSeen blockHash blockNumber).1 = true) :
    s.requestReceipts blockHash blockNumber = (s.afterRequest blockHash blockNumber,
      [s.requestEffect blockHash blockNumber]) := by
  unfold requestReceipts
  rw [if_neg (not_not.mpr hcb)]
  dsimp only
  rw [if_neg (not_not.mpr hnew), encodeGetReceipts_request]
  rfl

theorem requestReceipts_of_seen {blockHash : Hash256} {blockNumber : Uint64}
    (h : (s.chainTracker.markSeen blockHash blockNumber).1 = false) :
    s.requestReceipts blockHash blockNumber = (s, []) := by
  have hsame : (s.chainTracker.markSeen blockHash blockNumber).2 = s.chainTracker := by
    unfold ChainTracker.markSeen at h ⊢
    split_ifs at h ⊢
    rfl
  unfold requestReceipts
  split_ifs with hcb
  · dsimp only
    rw [if_pos (by rw [h]; exact Bool.false_ne_true), hsame]
  · rfl

/-- A call of `request_receipts` sends one message and records it, or does nothing at all. -/
theorem requestReceipts_cases (blockHash : Hash256) (blockNumber : Uint64) :
    s.requestReceipts blockHash blockNumber = (s, []) ∨
      (s.sendCb = true ∧ (s.chainTracker.markSeen blockHash blockNumber).1 = true ∧
        s.requestReceipts blockHash blockNumber = (s.afterRequest blockHash blockNumber,
          [s.requestEffect blockHash blockNumber])) := by
  by_cases hcb : s.sendCb = true
  · cases hnew : (s.chainTracker.markSeen blockHash blockNumber).1 with
    | true => exact .inr ⟨hcb, rfl, s.requestReceipts_of_new hcb hnew⟩
    | false => exact .inl (s.requestReceipts_of_seen hnew)
  · left
    unfold requestReceipts
    rw [if_pos hcb]

theorem event_of_onEvent {s : EthWatchService κ} {keccak256 : Bytes → Hash256} {id : EventWatchId}
    {event : MatchedEvent}
    {d : Delivery κ} (h : s.onEvent keccak256 id event = some (some d)) : d.event = event := by
  unfold onEvent at h
  split at h
  · cases h
  · split at h
    · cases h
    · split at h
      · cases h
      · cases h
      · cases h
        rfl

theorem block_of_mem_processReceipts (keccak256 : Bytes → Hash256) {receipts : List Receipt} {txHashes : List Hash256}
    {blockNumber : Uint64} {blockHash : Hash256} {d : Delivery κ}
    (h : d ∈ s.processReceipts keccak256 receipts txHashes blockNumber blockHash) :
    d.event.blockNumber = blockNumber ∧ d.event.blockHash = blockHash := by
  obtain ⟨⟨id, event⟩, hcall, honEvent⟩ := List.mem_map.mp (mem_of_mem_delivered h)
  obtain ⟨⟨receipt, txHash⟩, -, hcall⟩ := List.mem_flatMap.mp hcall
  rw [event_of_onEvent honEvent]
  exact EventWatcher.block_of_mem_processReceipt hcall

theorem pendingFor_eq_some {s : EthWatchService κ} {requestId : Option Uint64} {blockIdx : Nat} {id : Uint64}
    {pending : PendingRequest}
    (h : s.pendingFor requestId blockIdx = some (id, pending)) :
    blockIdx = 0 ∧ requestId = some id ∧ s.pendingRequests.lookup id = some pending := by
  unfold pendingFor at h
  cases requestId with
  | none => cases h
  | some id' =>
      by_cases hidx : blockIdx = 0
      · simp only [if_pos hidx, Option.map_eq_some_iff, Prod.mk.injEq] at h
        obtain ⟨_, hlookup, rfl, rfl⟩ := h
        exact ⟨hidx, rfl, hlookup⟩
      · simp [hidx] at h

theorem processBlock_cases (keccak256 : Bytes → Hash256) (requestId : Option Uint64) (block : List Receipt × Nat) :
    (s.pendingFor requestId block.2 = none ∧
        ∃ aborted deliveries,
          s.processBlock keccak256 requestId block = ({ s with aborted }, [.receipts none default 0 deliveries])) ∨
      ∃ id pending aborted deliveries, block.2 = 0 ∧ requestId = some id ∧ s.pendingRequests.lookup id = some pending ∧
        (∀ d ∈ deliveries, d.event.blockHash = pending.blockHash ∧ d.event.blockNumber = pending.blockNumber) ∧
        s.processBlock keccak256 requestId block =
          ({ s with pendingRequests := s.pendingRequests.erase id, aborted },
            [.receipts (some id) pending.blockHash pending.blockNumber deliveries]) := by
  obtain ⟨blockReceipts, blockIdx⟩ := block
  cases hpending : s.pendingFor requestId blockIdx with
  | none =>
      left
      let out := s.handOut keccak256 none blockReceipts (blockReceipts.map fun _ => default) 0 default
      refine ⟨rfl, out.1.aborted, s.processReceipts keccak256 blockReceipts (blockReceipts.map fun _ =>
        default) 0 default, ?_⟩
      unfold processBlock
      simp only [hpending]
      rfl
  | some found =>
      obtain ⟨id, pending⟩ := found
      obtain ⟨hidx, rfl, hlookup⟩ := pendingFor_eq_some hpending
      right
      let s' := { s with pendingRequests := s.pendingRequests.erase id }
      let out := s'.handOut keccak256 (some id) blockReceipts (blockReceipts.map fun _ => default) pending.blockNumber
        pending.blockHash
      refine ⟨id, pending, out.1.aborted, s'.processReceipts keccak256 blockReceipts
        (blockReceipts.map fun _ => default)
        pending.blockNumber pending.blockHash, hidx, rfl, hlookup, ?_, ?_⟩
      · intro d hd
        exact (block_of_mem_processReceipts _ keccak256 hd).symm
      · unfold processBlock
        simp only [hpending]
        rfl

/-! ## What sequences of calls keep -/

/-- The services agree on everything that requests of receipts use. -/
structure SameRequests (s t : EthWatchService κ) : Prop where
  chainTracker : t.chainTracker = s.chainTracker
  nextReqId : t.nextReqId = s.nextReqId
  pendingRequests : t.pendingRequests = s.pendingRequests

/-- `I` is kept by all that the service does to its requests: nothing, receipts of unknown blocks, a request, and
receipts that are taken for the block of a request. -/
structure Keeps (I : EthWatchService κ → List (Effect κ) → Prop) : Prop where
  idle : ∀ {s t es}, SameRequests s t → I s es → I t es
  unknown : ∀ {s es} blockHash blockNumber deliveries, I s es →
    I s (es ++ [.receipts none blockHash blockNumber deliveries])
  request : ∀ {s es blockHash blockNumber}, s.sendCb = true → (s.chainTracker.markSeen blockHash blockNumber).1 = true →
    I s es →
    I (s.afterRequest blockHash blockNumber) (es ++ [s.requestEffect blockHash blockNumber])
  supply : ∀ {s es id pending deliveries}, s.pendingRequests.lookup id = some pending →
    (∀ d ∈ deliveries, d.event.blockHash = pending.blockHash ∧ d.event.blockNumber = pending.blockNumber) → I s es →
    I { s with pendingRequests := s.pendingRequests.erase id }
      (es ++ [.receipts (some id) pending.blockHash pending.blockNumber deliveries])

namespace Keeps

variable {I : EthWatchService κ → List (Effect κ) → Prop} {s} {es : List (Effect κ)}

theorem abort (hI : Keeps I) (h : I s es) (aborted : Bool) : I { s with aborted } es :=
  have hsame : SameRequests s { s with aborted } := ⟨rfl, rfl, rfl⟩
  hI.idle hsame h

theorem requestReceipts (hI : Keeps I) (h : I s es) (blockHash : Hash256) (blockNumber : Uint64) :
    I (s.requestReceipts blockHash blockNumber).1 (es ++ (s.requestReceipts blockHash blockNumber).2) := by
  rcases s.requestReceipts_cases blockHash blockNumber with heq | ⟨hcb, hnew, heq⟩
  · rw [heq, List.append_nil]
    exact h
  · rw [heq]
    exact hI.request hcb hnew h

theorem processBlock (hI : Keeps I) (h : I s es) (keccak256 : Bytes → Hash256) (requestId : Option Uint64)
    (block : List Receipt × Nat) :
    I (s.processBlock keccak256 requestId block).1 (es ++ (s.processBlock keccak256 requestId block).2) := by
  rcases s.processBlock_cases keccak256 requestId block with
    ⟨-, aborted, deliveries, heq⟩ | ⟨id, pending, aborted, deliveries, -, -, hlookup, hd, heq⟩
  · rw [heq]
    exact hI.abort (hI.unknown default 0 deliveries h) aborted
  · rw [heq]
    exact hI.abort (hI.supply hlookup hd h) aborted

theorem processMessage (hI : Keeps I) (h : I s es) (keccak256 : Bytes → Hash256) (ethMsgId : UInt8)
    (payload : ByteView) :
    I (s.processMessage keccak256 ethMsgId payload).1 (es ++ (s.processMessage keccak256 ethMsgId payload).2) := by
  have hnone : I (s, ([] : List (Effect κ))).1 (es ++ (s, ([] : List (Effect κ))).2) := by rwa [List.append_nil]
  unfold EthWatchService.processMessage
  split_ifs
  · cases decodeNewBlockHashes payload with
    | error e => exact hnone
    | ok msg =>
        exact runEffects_invariant (I := I) (fun entry _ _ _ h => hI.requestReceipts h entry.hash entry.number) h
  · cases decodeNewBlock payload with
    | error e => exact hnone
    | ok msg => exact hI.requestReceipts h default msg.header.number
  · cases decodeReceipts payload with
    | error e => exact hnone
    | ok msg =>
        exact runEffects_invariant (I := I) (fun block _ _ _ h => hI.processBlock h keccak256 msg.requestId block) h
  · exact hnone

theorem step (hI : Keeps I) (h : I s es) (keccak256 : Bytes → Hash256) (input : Input κ) :
    I (s.step keccak256 input).1 (es ++ (s.step keccak256 input).2) := by
  have hidle {t : EthWatchService κ} (hsame : SameRequests s t) : I t (es ++ []) := by
    rw [List.append_nil]
    exact hI.idle hsame h
  cases input with
  | setSendCallback cb => exact hidle ⟨rfl, rfl, rfl⟩
  | watchEvent contractAddress eventSignature params callback fromBlock toBlock => exact hidle ⟨rfl, rfl, rfl⟩
  | unwatch id => exact hidle ⟨rfl, rfl, rfl⟩
  | requestReceipts blockHash blockNumber => exact hI.requestReceipts h blockHash blockNumber
  | processMessage ethMsgId payload => exact hI.processMessage h keccak256 ethMsgId payload
  | processReceipts receipts txHashes blockNumber blockHash => exact hI.abort (hI.unknown blockHash blockNumber _ h) _
  | processNewBlock msg blockHash => exact hI.requestReceipts h blockHash msg.header.number

theorem runEffects (hI : Keeps I) (h : I s es) (keccak256 : Bytes → Hash256) (inputs : List (Input κ)) :
    I (Lib.runEffects (EthWatchService.step keccak256) s inputs).1
      (es ++ (Lib.runEffects (EthWatchService.step keccak256) s inputs).2) :=
  runEffects_invariant (I := I) (fun input _ _ _ h => hI.step h keccak256 input) h

end Keeps

end EthWatchService

end DevP2P.Eth
