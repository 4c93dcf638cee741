import DevP2P.Eth.AbiBounds
import DevP2P.Eth.WatchService
import DevP2P.Lib.Counter

/-!
# Subscriptions and what is delivered to them

The service and its watcher each number the subscriptions with a counter of their own.

* `recipients` : the subscriptions whose filter a log passes, with what comes of it; `reactions_matched` : the same as
  the watcher's calls for one log;
* `Registry` : one list of registrations with one counter; `Aligned` : the lists of the service and of its watcher are
  both this one;
* `subscriptions_aligned` : after any calls a log is delivered to the live registrations whose filter matches and whose
  parameters decode, and to nothing else, exactly if none of them makes the decoder read outside the data;
* `PlacedDelivery`, `log_index_iff` : the log index is the position in the block exactly if only the first receipt with
  logs has logs that are delivered.
-/

namespace DevP2P.Eth
open DevP2P.Lib DevP2P.Rlp DevP2P.Eth.Abi

variable {κ : Type} (keccak256 : Bytes → Hash256)

/-! ## Recipients of a log -/

def EventSubscription.valuesOf (sub : EventSubscription κ) (log : LogEntry) :
    Reaction (EventSubscription κ × List AbiValue) :=
  match decodeLog keccak256 log sub.eventSignature sub.params with
  | .error .outOfBounds => none
  | .error (.error _) => some none
  | .ok values => some (some (sub, values))

section

variable {keccak256} {sub : EventSubscription κ} {log : LogEntry}

theorem valuesOf_eq_none_iff :
    sub.valuesOf keccak256 log = none ↔ decodeLog keccak256 log sub.eventSignature sub.params =
      .error .outOfBounds := by
  unfold EventSubscription.valuesOf
  rcases decodeLog keccak256 log sub.eventSignature sub.params with (_ | _) | _ <;> simp

theorem subscription_of_valuesOf {r : EventSubscription κ × List AbiValue}
    (h : sub.valuesOf keccak256 log = some (some r)) :
    r.1 = sub := by
  unfold EventSubscription.valuesOf at h
  rcases hdecode : decodeLog keccak256 log sub.eventSignature sub.params with (_ | _) | _ <;>
    rw [hdecode] at h <;> cases h
  rfl

end

namespace EthWatchService

variable (s : EthWatchService κ)

/-- What the callback registered for `id` finds for a log: the subscription, and the values. -/
def recipient (log : LogEntry) (id : EventWatchId) : Reaction (EventSubscription κ × List AbiValue) :=
  if s.aborted then none
  else
    match s.subscriptions.find? fun sub => sub.id = id with
    | none => some none
    | some sub => sub.valuesOf keccak256 log

def recipients (blockNumber : Uint64) (log : LogEntry) : List (Reaction (EventSubscription κ × List AbiValue)) :=
  (s.watcher.subscriptions.filter fun sub => sub.filter.matches log blockNumber).map fun sub =>
    s.recipient keccak256 log sub.callback

theorem onEvent_eq (id : EventWatchId) (event : MatchedEvent) :
    s.onEvent keccak256 id event = (s.recipient keccak256 event.log id).map fun r => ⟨r.1, event, r.2⟩ := by
  unfold onEvent recipient
  split_ifs
  · rfl
  · cases s.subscriptions.find? fun sub => sub.id = id with
    | none => rfl
    | some sub =>
        unfold EventSubscription.valuesOf
        dsimp only
        rcases decodeLog keccak256 event.log sub.eventSignature sub.params with (_ | _) | _ <;> rfl

theorem reactions_matched (blockNumber : Uint64) (blockHash txHash : Hash256) (log : LogEntry) (logIndex : Uint32) :
    s.reactions keccak256 (s.watcher.matched blockNumber blockHash txHash log logIndex) =
      (s.recipients keccak256 blockNumber log).map
        (Reaction.map fun r => ⟨r.1, ⟨log, blockNumber, blockHash, txHash, logIndex⟩, r.2⟩) := by
  unfold reactions EventWatcher.matched recipients
  rw [List.map_map, List.map_map]
  exact List.map_congr_left fun sub _ => s.onEvent_eq keccak256 sub.callback _

theorem reactions_dispatchFrom (blockNumber : Uint64) (blockHash txHash : Hash256) (logs : List LogEntry) (k : Nat) :
    s.reactions keccak256 (s.watcher.dispatchFrom blockNumber blockHash txHash (BitVec.ofNat _ k) logs) =
      (logs.zipIdx k).flatMap fun (log, i) => (s.recipients keccak256 blockNumber log).map
        (Reaction.map fun r => ⟨r.1, ⟨log, blockNumber, blockHash, txHash, BitVec.ofNat _ i⟩, r.2⟩) := by
  rw [EventWatcher.dispatchFrom_eq]
  unfold reactions
  rw [List.map_flatMap]
  exact List.flatMap_congr fun entry _ => s.reactions_matched keccak256 blockNumber blockHash txHash entry.1 _

theorem reactions_receiptCalls (receipts : List Receipt) (txHashes : List Hash256) (blockNumber : Uint64)
    (blockHash : Hash256) :
    s.reactions keccak256 (s.receiptCalls receipts txHashes blockNumber blockHash) =
      (receipts.zip txHashes).flatMap fun (receipt, txHash) => receipt.logs.zipIdx.flatMap fun (log, i) =>
        (s.recipients keccak256 blockNumber log).map
          (Reaction.map fun r => ⟨r.1, ⟨log, blockNumber, blockHash, txHash, BitVec.ofNat _ i⟩, r.2⟩) := by
  unfold reactions receiptCalls
  rw [List.map_flatMap]
  exact List.flatMap_congr fun entry _ =>
    s.reactions_dispatchFrom keccak256 blockNumber blockHash entry.2 entry.1.logs 0

end EthWatchService

/-! ## Registrations -/

/-- A call of `watch_event`, with the id it returned. -/
structure Registration (κ : Type) where
  id : EventWatchId
  contractAddress : Address
  eventSignature : Bytes
  params : List AbiParam
  callback : κ
  fromBlock : Option Uint64
  toBlock : Option Uint64

namespace Registration

def subscription (r : Registration κ) : EventSubscription κ := ⟨r.id, r.eventSignature, r.params, r.callback⟩

def filter (r : Registration κ) : EventFilter :=
  eventFilter keccak256 r.contractAddress r.eventSignature r.fromBlock r.toBlock

/-- The values of a log that the filter lets through and whose parameters decode. -/
def receives (blockNumber : Uint64) (log : LogEntry) (r : Registration κ) :
    Option (EventSubscription κ × List AbiValue) :=
  if (r.filter keccak256).matches log blockNumber then (r.subscription.valuesOf keccak256 log).join else none

end Registration

/-- The registrations that are live, and the next id. -/
structure Registry (κ : Type) where
  nextId : EventWatchId := 1
  live : List (Registration κ) := []

def Registry.apply (reg : Registry κ) : Input κ → Registry κ
  | .watchEvent contractAddress eventSignature params callback fromBlock toBlock =>
    { nextId := reg.nextId + 1
      live := reg.live ++ [⟨reg.nextId, contractAddress, eventSignature, params, callback, fromBlock, toBlock⟩] }
  | .unwatch id => { reg with live := reg.live.filter fun r => r.id ≠ id }
  | _ => reg

def registry (inputs : List (Input κ)) : Registry κ := inputs.foldl Registry.apply {}

def Input.isWatchEvent : Input κ → Bool
  | .watchEvent _ _ _ _ _ _ => true
  | _ => false

def registrations (inputs : List (Input κ)) : Nat := inputs.countP Input.isWatchEvent

/-! ## The two lists of subscriptions -/

/-- The service and its watcher hold the registrations of `reg`. -/
structure Aligned (s : EthWatchService κ) (reg : Registry κ) : Prop where
  subscriptions : s.subscriptions = reg.live.map Registration.subscription
  filters : s.watcher.subscriptions = reg.live.map fun r => ⟨r.id, r.filter keccak256, r.id⟩
  nextId : s.nextId = reg.nextId
  watcherNextId : s.watcher.nextId = reg.nextId

structure SameSubscriptions (s t : EthWatchService κ) : Prop where
  subscriptions : t.subscriptions = s.subscriptions
  watcher : t.watcher = s.watcher
  nextId : t.nextId = s.nextId

theorem SameSubscriptions.refl (s : EthWatchService κ) : SameSubscriptions s s := ⟨rfl, rfl, rfl⟩

theorem sameSubscriptions_requestReceipts {s t : EthWatchService κ} (h : SameSubscriptions s t) (blockHash : Hash256)
    (blockNumber : Uint64) : SameSubscriptions s (t.requestReceipts blockHash blockNumber).1 := by
  rcases t.requestReceipts_cases blockHash blockNumber with heq | ⟨-, -, heq⟩
  · rwa [heq]
  · rw [heq]
    exact ⟨h.subscriptions, h.watcher, h.nextId⟩

theorem sameSubscriptions_processBlock {s t : EthWatchService κ} (h : SameSubscriptions s t) (requestId : Option Uint64)
    (block : List Receipt × Nat) : SameSubscriptions s (t.processBlock keccak256 requestId block).1 := by
  rcases t.processBlock_cases keccak256 requestId block with ⟨-, _, _, heq⟩ | ⟨_, _, _, _, -, -, -, -, heq⟩ <;>
    rw [heq] <;> exact ⟨h.subscriptions, h.watcher, h.nextId⟩

theorem sameSubscriptions_processMessage (s : EthWatchService κ) (ethMsgId : UInt8) (payload : ByteView) :
    SameSubscriptions s (s.processMessage keccak256 ethMsgId payload).1 := by
  have hrefl := SameSubscriptions.refl s
  unfold EthWatchService.processMessage
  split_ifs
  · cases decodeNewBlockHashes payload with
    | error e => exact hrefl
    | ok msg =>
        apply runEffects_state (I := SameSubscriptions s) _ hrefl
        intro entry _ t h
        exact sameSubscriptions_requestReceipts h entry.hash entry.number
  · cases decodeNewBlock payload with
    | error e => exact hrefl
    | ok msg => exact sameSubscriptions_requestReceipts hrefl default msg.header.number
  · cases decodeReceipts payload with
    | error e => exact hrefl
    | ok msg =>
        apply runEffects_state (I := SameSubscriptions s) _ hrefl
        intro block _ t h
        exact sameSubscriptions_processBlock keccak256 h msg.requestId block
  · exact hrefl

namespace Aligned

variable {keccak256} {s : EthWatchService κ} {reg : Registry κ}

theorem of_same {t : EthWatchService κ} (h : Aligned keccak256 s reg) (hsame : SameSubscriptions s t) :
    Aligned keccak256 t reg where
  subscriptions := hsame.subscriptions.trans h.subscriptions
  filters := by rw [hsame.watcher, h.filters]
  nextId := hsame.nextId.trans h.nextId
  watcherNextId := by rw [hsame.watcher, h.watcherNextId]

theorem watchEvent (h : Aligned keccak256 s reg) (contractAddress : Address) (eventSignature : Bytes)
    (params : List AbiParam)
    (callback : κ) (fromBlock toBlock : Option Uint64) :
    Aligned keccak256 (s.watchEvent keccak256 contractAddress eventSignature params callback fromBlock toBlock)
      (reg.apply (.watchEvent contractAddress eventSignature params callback fromBlock toBlock)) where
  subscriptions := by
    show s.subscriptions ++ [⟨s.nextId, eventSignature, params, callback⟩] = List.map _ (reg.live ++ _)
    rw [h.subscriptions, h.nextId, List.map_append]
    rfl
  filters := by
    show s.watcher.subscriptions ++ [⟨s.watcher.nextId, _, s.nextId⟩] = List.map _ (reg.live ++ _)
    rw [h.filters, h.watcherNextId, h.nextId, List.map_append]
    rfl
  nextId := congrArg (· + 1) h.nextId
  watcherNextId := congrArg (· + 1) h.watcherNextId

theorem unwatch (h : Aligned keccak256 s reg) (id : EventWatchId) :
    Aligned keccak256 (s.unwatch id) (reg.apply (.unwatch id)) where
  subscriptions := by
    show s.subscriptions.filter _ = List.map _ (reg.live.filter _)
    rw [h.subscriptions, List.filter_map]
    rfl
  filters := by
    show s.watcher.subscriptions.filter _ = List.map _ (reg.live.filter _)
    rw [h.filters, List.filter_map]
    rfl
  nextId := h.nextId
  watcherNextId := h.watcherNextId

theorem step (h : Aligned keccak256 s reg) (input : Input κ) :
    Aligned keccak256 (s.step keccak256 input).1 (reg.apply input) := by
  cases input with
  | setSendCallback cb => exact h.of_same ⟨rfl, rfl, rfl⟩
  | watchEvent contractAddress eventSignature params callback fromBlock toBlock =>
      exact h.watchEvent contractAddress eventSignature params callback fromBlock toBlock
  | unwatch id => exact h.unwatch id
  | requestReceipts blockHash blockNumber =>
      exact h.of_same (sameSubscriptions_requestReceipts (.refl s) blockHash blockNumber)
  | processMessage ethMsgId payload => exact h.of_same (sameSubscriptions_processMessage keccak256 s ethMsgId payload)
  | processReceipts receipts txHashes blockNumber blockHash => exact h.of_same ⟨rfl, rfl, rfl⟩
  | processNewBlock msg blockHash =>
      exact h.of_same (sameSubscriptions_requestReceipts (.refl s) blockHash msg.header.number)

theorem run (inputs : List (Input κ)) : Aligned keccak256 (EthWatchService.run keccak256 inputs).1
    (registry inputs) := by
  unfold EthWatchService.run registry
  induction inputs using List.reverseRecOn with
  | nil => exact ⟨rfl, rfl, rfl, rfl⟩
  | append_singleton inputs input ih =>
      rw [runEffects_append, runEffects_singleton, List.foldl_concat]
      exact ih.step input

theorem ids (h : Aligned keccak256 s reg) :
    s.subscriptions.map EventSubscription.id = reg.live.map Registration.id ∧
      s.watcher.subscriptions.map FilterSubscription.id = reg.live.map Registration.id := by
  rw [h.subscriptions, h.filters, List.map_map, List.map_map]
  exact ⟨rfl, rfl⟩

theorem recipients (h : Aligned keccak256 s reg) (hnodup : (reg.live.map Registration.id).Nodup)
    (hrunning : s.aborted = false)
    (blockNumber : Uint64) (log : LogEntry) : s.recipients keccak256 blockNumber log =
      (reg.live.filter fun r => (r.filter keccak256).matches log blockNumber).map fun r =>
        r.subscription.valuesOf keccak256 log := by
  have hfind (r : Registration κ) (hr : r ∈ reg.live) :
      (s.subscriptions.find? fun sub => sub.id = r.id) = some r.subscription := by
    rw [h.subscriptions, List.find?_map]
    change (reg.live.find? fun r' => r'.id = r.id).map Registration.subscription = _
    cases hfound : reg.live.find? fun r' => r'.id = r.id with
    | none =>
        simpa using List.find?_eq_none.mp hfound r hr
    | some r' =>
        have hid : r'.id = r.id := by simpa using List.find?_some hfound
        rw [List.inj_on_of_nodup_map hnodup (List.mem_of_find?_eq_some hfound) hr hid]
        rfl
  unfold EthWatchService.recipients
  rw [h.filters, List.filter_map, List.map_map]
  apply List.map_congr_left
  intro r hr
  unfold EthWatchService.recipient
  simp [hrunning, hfind r (List.mem_filter.mp hr).1]

end Aligned

/-! ## Ids -/

/-- The ids that are live are among the first `k` ids, in order. -/
structure Numbered (reg : Registry κ) (k : Nat) : Prop where
  nextId : reg.nextId = idOf k
  ids : (reg.live.map Registration.id).Sublist ((List.range k).map idOf)

theorem Numbered.apply {reg : Registry κ} {k : Nat} (h : Numbered reg k) (input : Input κ) :
    Numbered (reg.apply input) (if input.isWatchEvent then k + 1 else k) := by
  cases input with
  | watchEvent contractAddress eventSignature params callback fromBlock toBlock =>
      refine ⟨?_, ?_⟩
      · show reg.nextId + 1 = _
        rw [h.nextId, idOf_add_one]
        rfl
      · show (List.map _ (reg.live ++ _)).Sublist ((List.range (k + 1)).map idOf)
        rw [List.map_append, List.range_succ, List.map_append]
        exact h.ids.append (by rw [List.map_singleton, List.map_singleton, h.nextId])
  | unwatch id => exact ⟨h.nextId, (List.filter_sublist.map _).trans h.ids⟩
  | setSendCallback cb => exact h
  | requestReceipts blockHash blockNumber => exact h
  | processMessage ethMsgId payload => exact h
  | processReceipts receipts txHashes blockNumber blockHash => exact h
  | processNewBlock msg blockHash => exact h

theorem registrations_concat (inputs : List (Input κ)) (input : Input κ) :
    registrations (inputs ++ [input]) = if input.isWatchEvent then registrations inputs +
      1 else registrations inputs := by
  unfold registrations
  rw [List.countP_append, List.countP_singleton]
  split_ifs <;> rfl

theorem numbered_registry (inputs : List (Input κ)) : Numbered (registry inputs) (registrations inputs) := by
  induction inputs using List.reverseRecOn with
  | nil => exact ⟨rfl, List.Sublist.refl _⟩
  | append_singleton inputs input ih =>
      rw [registrations_concat, registry, List.foldl_concat]
      exact ih.apply input

theorem nodup_ids_registry {inputs : List (Input κ)} (h : registrations inputs < 2 ^ 32) :
    ((registry inputs).live.map Registration.id).Nodup :=
  (numbered_registry inputs).ids.nodup (nodup_ids h)

theorem removed_of_removed {before : List (Input κ)} {id : EventWatchId}
    (hissued : id ∈ (List.range (registrations before)).map idOf)
    (hremoved : id ∉ (registry before).live.map Registration.id) (after : List (Input κ))
    (hfew : registrations (before ++ after) < 2 ^ 32) : id ∉ (registry (before ++ after)).live.map Registration.id := by
  induction after using List.reverseRecOn with
  | nil => rwa [List.append_nil]
  | append_singleton after input ih =>
      rw [← List.append_assoc] at hfew ⊢
      have hstep := registrations_concat (before ++ after) input
      have hle : registrations before ≤ registrations (before ++ after) := by
        unfold registrations
        rw [List.countP_append]
        omega
      have hnumbered := numbered_registry (before ++ after)
      have hlive := ih (by split_ifs at hstep <;> omega)
      rw [registry, List.foldl_concat]
      change id ∉ ((registry (before ++ after)).apply input).live.map Registration.id
      cases input with
      | watchEvent contractAddress eventSignature params callback fromBlock toBlock =>
          show id ∉ List.map _ ((registry (before ++ after)).live ++ _)
          rw [List.map_append, List.mem_append, List.map_singleton, List.mem_singleton, hnumbered.nextId]
          rintro (hmem | rfl)
          · exact hlive hmem
          · have hone : registrations (before ++ after) + 1 < 2 ^ 32 := lt_of_eq_of_lt hstep.symm hfew
            exact idOf_not_mem hle hone hissued
      | unwatch id' => exact fun hmem => hlive ((List.filter_sublist.map _).subset hmem)
      | setSendCallback cb => exact hlive
      | requestReceipts blockHash blockNumber => exact hlive
      | processMessage ethMsgId payload => exact hlive
      | processReceipts receipts txHashes blockNumber blockHash => exact hlive
      | processNewBlock msg blockHash => exact hlive

/-! ## Deliveries -/

/-- What the registrations in `live` receive of the receipts of a block. -/
def deliveriesTo (live : List (Registration κ)) (receipts : List Receipt) (txHashes : List Hash256)
    (blockNumber : Uint64)
    (blockHash : Hash256) : List (Delivery κ) :=
  (receipts.zip txHashes).flatMap fun (receipt, txHash) => receipt.logs.zipIdx.flatMap fun (log, i) =>
    (live.filterMap (Registration.receives keccak256 blockNumber log)).map fun r =>
      ⟨r.1, ⟨log, blockNumber, blockHash, txHash, BitVec.ofNat _ i⟩, r.2⟩

/-- No live registration whose filter matches makes the decoder read outside the data of a log. -/
def ReadsInside (live : List (Registration κ)) (receipts : List Receipt) (txHashes : List Hash256)
    (blockNumber : Uint64) : Prop :=
  ∀ entry ∈ receipts.zip txHashes, ∀ log ∈ entry.1.logs, ∀ r ∈ live,
    (r.filter keccak256).matches log blockNumber → decodeLog keccak256 log r.eventSignature r.params ≠
      .error .outOfBounds

section Served

variable {s : EthWatchService κ} {reg : Registry κ} (h : Aligned keccak256 s reg)
    (hnodup : (reg.live.map Registration.id).Nodup)
  (hrunning : s.aborted = false) (receipts : List Receipt) (txHashes : List Hash256) (blockNumber : Uint64)
    (blockHash : Hash256)

include h hnodup hrunning

theorem join_reactions_eq :
    (s.reactions keccak256 (s.receiptCalls receipts txHashes blockNumber blockHash)).filterMap Option.join =
      deliveriesTo keccak256 reg.live receipts txHashes blockNumber blockHash := by
  have hlog {α : Type} (log : LogEntry) (f : EventSubscription κ × List AbiValue → α) :
      ((s.recipients keccak256 blockNumber log).map (Reaction.map f)).filterMap Option.join =
        (reg.live.filterMap (Registration.receives keccak256 blockNumber log)).map f := by
    rw [h.recipients hnodup hrunning, List.map_map, List.filterMap_map, ← List.filterMap_eq_filter,
      List.filterMap_filterMap,
      List.map_filterMap]
    apply List.filterMap_congr
    intro r _
    unfold Registration.receives
    by_cases hmatch : (r.filter keccak256).matches log blockNumber = true
    · rcases hvalues : r.subscription.valuesOf keccak256 log with _ | _ | _ <;> simp [Option.guard, hmatch,
        hvalues, Reaction.map]
    · simp [Option.guard, hmatch]
  rw [s.reactions_receiptCalls, List.filterMap_flatMap]
  unfold deliveriesTo
  refine List.flatMap_congr fun entry _ => ?_
  rw [List.filterMap_flatMap]
  exact List.flatMap_congr fun log _ => hlog log.1 _

theorem processReceipts_isPrefix :
    s.processReceipts keccak256 receipts txHashes blockNumber blockHash <+:
      deliveriesTo keccak256 reg.live receipts txHashes blockNumber blockHash := by
  rw [← join_reactions_eq keccak256 h hnodup hrunning]
  exact (List.takeWhile_prefix _).filterMap _

theorem readsOutside_eq_false_iff :
    s.readsOutside keccak256 receipts txHashes blockNumber blockHash = false ↔
      ReadsInside keccak256 reg.live receipts txHashes blockNumber := by
  unfold EthWatchService.readsOutside
  rw [List.any_eq_false, s.reactions_receiptCalls]
  simp only [h.recipients hnodup hrunning]
  constructor
  · intro hall entry hentry log hlog r hr hmatch hout
    obtain ⟨i, hi⟩ := List.mem_iff_getElem?.mp hlog
    have hvalues : r.subscription.valuesOf keccak256 log = none := valuesOf_eq_none_iff.mpr hout
    refine hall none (List.mem_flatMap.mpr ⟨_, hentry,
      List.mem_flatMap.mpr ⟨(log, i), ?_, List.mem_map.mpr ⟨none, ?_, rfl⟩⟩⟩) rfl
    · exact List.mem_zipIdx_iff_getElem?.mpr hi
    · exact List.mem_map.mpr ⟨r, List.mem_filter.mpr ⟨hr, hmatch⟩, hvalues⟩
  · intro hinside reaction hmem hnone
    obtain ⟨entry, hentry, hreceipt⟩ := List.mem_flatMap.mp hmem
    obtain ⟨⟨log, i⟩, hlog, hreaction⟩ := List.mem_flatMap.mp hreceipt
    obtain ⟨_, hread, rfl⟩ := List.mem_map.mp hreaction
    obtain ⟨r, hr, rfl⟩ := List.mem_map.mp hread
    obtain ⟨hr, hmatch⟩ := List.mem_filter.mp hr
    have hvalues : r.subscription.valuesOf keccak256 log = none := by simpa [Reaction.map] using hnone
    have hlog := List.mem_of_getElem? (List.mem_zipIdx_iff_getElem?.mp hlog)
    exact hinside entry hentry log hlog r hr hmatch (valuesOf_eq_none_iff.mp hvalues)

theorem processReceipts_eq (hinside : ReadsInside keccak256 reg.live receipts txHashes blockNumber) :
    s.processReceipts keccak256 receipts txHashes blockNumber blockHash =
      deliveriesTo keccak256 reg.live receipts txHashes blockNumber blockHash := by
  rw [← join_reactions_eq keccak256 h hnodup hrunning]
  have hsome := (readsOutside_eq_false_iff keccak256 h hnodup hrunning receipts txHashes blockNumber blockHash).mpr
    hinside
  unfold EthWatchService.processReceipts EthWatchService.deliver delivered
  rw [List.takeWhile_eq_self_iff.mpr]
  intro r hr
  simpa [Option.isSome_iff_ne_none] using List.any_eq_false.mp hsome r hr

end Served

theorem mem_deliveriesTo {live : List (Registration κ)} {receipts : List Receipt} {txHashes : List Hash256}
    {blockNumber : Uint64}
    {blockHash : Hash256} {d : Delivery κ} (h : d ∈
      deliveriesTo keccak256 live receipts txHashes blockNumber blockHash) :
    ∃ r ∈ live, d.subscription = r.subscription := by
  obtain ⟨_, -, h⟩ := List.mem_flatMap.mp h
  obtain ⟨⟨log, i⟩, -, h⟩ := List.mem_flatMap.mp h
  obtain ⟨⟨sub, values⟩, hmem, rfl⟩ := List.mem_map.mp h
  obtain ⟨r, hr, hreceives⟩ := List.mem_filterMap.mp hmem
  refine ⟨r, hr, ?_⟩
  unfold Registration.receives at hreceives
  split_ifs at hreceives
  exact subscription_of_valuesOf (Option.join_eq_some_iff.mp hreceives)

/-- The receipts are read to the end, and everything in them is delivered to the registrations in `live`. -/
def Serves (s : EthWatchService κ) (live : List (Registration κ)) (receipts : List Receipt) (txHashes : List Hash256)
    (blockNumber : Uint64) (blockHash : Hash256) : Prop :=
  s.readsOutside keccak256 receipts txHashes blockNumber blockHash = false ∧
    s.processReceipts keccak256 receipts txHashes blockNumber blockHash =
      deliveriesTo keccak256 live receipts txHashes blockNumber blockHash

/-- Over any calls with fewer than `2 ^ 32` registrations, the ids of the service and of its watcher are the same and
all different. After `unwatch(id)` the logs of receipts are delivered to live registrations with other ids only, by
their filters and parameters, and to all of them exactly if the decoder does not read outside a log for one of them;
nothing is delivered to the removed one later. -/
theorem subscriptions_aligned (inputs : List (Input κ)) (hfew : registrations inputs < 2 ^ 32)
    (hrunning : (EthWatchService.run keccak256 inputs).1.aborted = false) :
    let s := (EthWatchService.run keccak256 inputs).1
    let live := (registry inputs).live
    s.subscriptions.map EventSubscription.id = s.watcher.subscriptions.map FilterSubscription.id ∧
      (s.subscriptions.map EventSubscription.id).Nodup ∧
      (∀ id receipts txHashes blockNumber blockHash,
        let others := live.filter fun r => r.id ≠ id
        let deliveries := (s.unwatch id).processReceipts keccak256 receipts txHashes blockNumber blockHash
        deliveries <+: deliveriesTo keccak256 others receipts txHashes blockNumber blockHash ∧
          (∀ d ∈ deliveries, d.subscription.id ≠ id) ∧
          (Serves keccak256 (s.unwatch id) others receipts txHashes blockNumber blockHash ↔
            ReadsInside keccak256 others receipts txHashes blockNumber)) ∧
      (∀ before id after, inputs = before ++ .unwatch id :: after → id ∈ (registry before).live.map Registration.id →
        id ∉ live.map Registration.id) := by
  intro s live
  have haligned : Aligned keccak256 s (registry inputs) := Aligned.run inputs
  have hnodup := nodup_ids_registry hfew
  obtain ⟨hservice, hwatcher⟩ := haligned.ids
  refine ⟨hservice.trans hwatcher.symm, hservice ▸ hnodup, ?_, ?_⟩
  · intro id receipts txHashes blockNumber blockHash others deliveries
    have hunwatch : (((registry inputs).apply (.unwatch id)).live.map Registration.id).Nodup :=
      (List.filter_sublist.map _).nodup hnodup
    have halive : (s.unwatch id).aborted = false := hrunning
    have hfront : deliveries <+: _ :=
      processReceipts_isPrefix keccak256 (haligned.unwatch id) hunwatch halive receipts txHashes blockNumber blockHash
    have hinside : _ ↔ ReadsInside keccak256 others receipts txHashes blockNumber :=
      readsOutside_eq_false_iff keccak256 (haligned.unwatch id) hunwatch halive receipts txHashes blockNumber blockHash
    refine ⟨hfront, ?_, ⟨fun hserves => hinside.mp hserves.1, fun hin => ⟨hinside.mpr hin, ?_⟩⟩⟩
    · intro d hd
      obtain ⟨r, hr, hsub⟩ := mem_deliveriesTo keccak256 (hfront.subset hd)
      rw [hsub]
      exact of_decide_eq_true (List.mem_filter.mp hr).2
    · exact processReceipts_eq keccak256 (haligned.unwatch id) hunwatch halive receipts txHashes
        blockNumber blockHash hin
  · intro before id after heq hlive
    have happend : inputs = (before ++ [.unwatch id]) ++ after := by rw [heq, List.append_assoc, List.singleton_append]
    have hissued := (numbered_registry before).ids.subset hlive
    have hsame : registrations (before ++ [.unwatch id]) = registrations before :=
      registrations_concat before (.unwatch id)
    show id ∉ (registry inputs).live.map Registration.id
    rw [happend] at hfew ⊢
    refine removed_of_removed (hsame ▸ hissued) ?_ after hfew
    rw [registry, List.foldl_concat]
    show id ∉ ((registry before).live.filter fun r => r.id ≠ id).map Registration.id
    intro hmem
    obtain ⟨r, hr, hid⟩ := List.mem_map.mp hmem
    simpa [hid] using (List.mem_filter.mp hr).2

/-- A registration for `bytes` and two for no parameters; all match the logs of every event, of the hash
`fun _ => default`. -/
def threeWatches : List (Input Nat) :=
  [.watchEvent default [1] [⟨.kBytes, false⟩] 10 none none, .watchEvent default [2] [] 20 none none,
    .watchEvent default [3] [] 30 none none]

def receiptOf (data : Bytes) : Receipt := ⟨none, some true, 0, default, [⟨default, [default], data⟩]⟩

/-- After `unwatch(2)` a log is delivered to the other two registrations. -/
theorem subscriptions_aligned_two :
    let s := (EthWatchService.run (fun _ => default) threeWatches).1.unwatch 2
    let receipts := [receiptOf (wordOf 32 ++ wordOf 1 ++ [7])]
    Serves (fun _ => default) s ((registry threeWatches).live.filter fun r => r.id ≠ 2) receipts [default] 7 default ∧
      (s.processReceipts (fun _ => default) receipts [default] 7 default).map (fun d => d.subscription.callback) =
        [10, 30] := by
  have haligned := subscriptions_aligned (fun _ => default) threeWatches (by decide) (by decide)
  refine ⟨(haligned.2.2.1 2 _ _ 7 default).2.2.mpr ?_, by decide +kernel⟩
  unfold ReadsInside
  decide +kernel

/-- The length `2 ^ 64 - 64` of the `bytes` at 64 passes the check of its end, so that nothing is delivered, although
the last registration is live, matches and decodes the log. -/
theorem outside_read_stops_delivery :
    let s := (EthWatchService.run (fun _ => default) threeWatches).1.unwatch 2
    let receipts := [receiptOf (wordOf 32 ++ wordOf (2 ^ 64 - 64))]
    s.processReceipts (fun _ => default) receipts [default] 7 default = [] ∧
      (deliveriesTo (fun _ => default) ((registry threeWatches).live.filter fun r => r.id ≠ 2) receipts
        [default] 7 default).map
        (fun d => d.subscription.callback) = [30] := by
  decide +kernel

/-! ## Log indices -/

/-- A delivery with the place of its log in the block: the logs of the receipts before its own, and its position in the
receipt. -/
structure PlacedDelivery (κ : Type) where
  before : Nat
  index : Nat
  delivery : Delivery κ

namespace PlacedDelivery

def position (p : PlacedDelivery κ) : Nat := p.before + p.index

end PlacedDelivery

/-- What a delivery says but for the transaction and the values. -/
def Delivery.numbered (d : Delivery κ) : EventSubscription κ × LogEntry × Uint64 × Hash256 × Uint32 :=
  (d.subscription, d.event.log, d.event.blockNumber, d.event.blockHash, d.event.logIndex)

section

variable (s : EthWatchService κ) (blockNumber : Uint64) (blockHash : Hash256)

/-- What comes of the receipts of a block, each with its transaction hash, behind `before` other logs. -/
def placedFrom : Nat → List (Receipt × Hash256) → List (Reaction (PlacedDelivery κ))
  | _, [] => []
  | before, (receipt, txHash) :: block =>
    (receipt.logs.zipIdx.flatMap fun (log, i) => (s.recipients keccak256 blockNumber log).map (Reaction.map fun r =>
      ⟨before, i, ⟨r.1, ⟨log, blockNumber, blockHash, txHash, BitVec.ofNat _ i⟩, r.2⟩⟩)) ++
    placedFrom (before + receipt.logs.length) block

theorem delivery_placedFrom (before : Nat) (block : List (Receipt × Hash256)) :
    (placedFrom keccak256 s blockNumber blockHash before block).map (Reaction.map PlacedDelivery.delivery) =
      s.reactions keccak256 (s.receiptCalls (block.map Prod.fst) (block.map Prod.snd) blockNumber blockHash) := by
  rw [s.reactions_receiptCalls]
  induction block generalizing before with
  | nil => rfl
  | cons entry block ih =>
      rw [placedFrom, List.map_append, ih, List.map_flatMap]
      simp only [List.map_map, Reaction.map_comp]
      rfl

theorem log_of_mem_placedFrom {before : Nat} {block : List (Receipt × Hash256)} {p : PlacedDelivery κ}
    (h : some (some p) ∈ placedFrom keccak256 s blockNumber blockHash before block) :
    p.delivery.event.logIndex = BitVec.ofNat _ p.index ∧ before ≤ p.before ∧
      (block.flatMap fun entry => entry.1.logs)[p.position - before]? = some p.delivery.event.log := by
  induction block generalizing before with
  | nil => cases h
  | cons entry block ih =>
      obtain ⟨receipt, txHash⟩ := entry
      rw [List.flatMap_cons]
      rcases List.mem_append.mp h with h | h
      · obtain ⟨⟨log, i⟩, hlog, h⟩ := List.mem_flatMap.mp h
        obtain ⟨r, -, hr⟩ := List.mem_map.mp h
        obtain ⟨_, rfl⟩ := Reaction.exists_of_map hr
        have hget := List.mem_zipIdx_iff_getElem?.mp hlog
        refine ⟨rfl, le_rfl, ?_⟩
        show (receipt.logs ++ _)[before + i - before]? = some log
        rw [Nat.add_sub_cancel_left, List.getElem?_append_left (List.getElem?_eq_some_iff.mp hget).1]
        exact hget
      · obtain ⟨hindex, hle, hget⟩ := ih h
        refine ⟨hindex, by omega, ?_⟩
        unfold PlacedDelivery.position at hget ⊢
        dsimp only
        rw [List.getElem?_append_right (by omega), ← hget]
        congr 1
        omega

theorem numbered_processBlockLogs (before : Nat) (block : List (Receipt × Hash256)) :
    (s.deliver keccak256 (s.watcher.dispatchFrom blockNumber blockHash default (BitVec.ofNat _ before)
        (block.flatMap fun entry => entry.1.logs))).map Delivery.numbered =
      (delivered (placedFrom keccak256 s blockNumber blockHash before block)).map fun p =>
        (p.delivery.subscription, p.delivery.event.log, blockNumber, blockHash, BitVec.ofNat _ p.position) := by
  unfold EthWatchService.deliver
  rw [← delivered_map, ← delivered_map, EthWatchService.reactions_dispatchFrom]
  congr 1
  induction block generalizing before with
  | nil => rfl
  | cons entry block ih =>
      obtain ⟨receipt, txHash⟩ := entry
      rw [List.flatMap_cons, List.zipIdx_append, List.flatMap_append, List.map_append, ih, placedFrom, List.map_append]
      congr 1
      rw [List.zipIdx_eq_map_add, List.flatMap_map, List.map_flatMap, List.map_flatMap]
      congr 1
      funext ⟨log, i⟩
      rw [List.map_map, List.map_map, Reaction.map_comp, Reaction.map_comp]
      rfl

/-- The deliveries of the receipts of a block, with their places. -/
def placed (block : List (Receipt × Hash256)) : List (PlacedDelivery κ) :=
  delivered (placedFrom keccak256 s blockNumber blockHash 0 block)

/-- `process_receipts` delivers what `process_block_logs` does, with the position in the block for the log index,
exactly if every delivered log is in the first receipt that has logs, and is not behind `2 ^ 32` others. -/
theorem log_index_iff (block : List (Receipt × Hash256)) :
    let deliveries := s.processReceipts keccak256 (block.map Prod.fst) (block.map Prod.snd) blockNumber blockHash
    let logs := block.flatMap fun entry => entry.1.logs
    let places := placed keccak256 s blockNumber blockHash block
    (deliveries = places.map PlacedDelivery.delivery ∧ ∀ p ∈ places, logs[p.position]? = some p.delivery.event.log) ∧
      ((deliveries.map Delivery.numbered =
          (s.deliver keccak256 (s.watcher.processBlockLogs logs blockNumber blockHash)).map Delivery.numbered ∧
        (∀ p ∈ places, p.delivery.event.logIndex.toNat = p.position) ∧
        ∀ p ∈ places, ∀ q ∈ places, p.position ≠ q.position → p.delivery.event.logIndex ≠ q.delivery.event.logIndex) ↔
      ∀ p ∈ places, p.before = 0 ∧ p.index < 2 ^ 32) := by
  intro deliveries logs places
  have hdeliveries : deliveries = places.map PlacedDelivery.delivery :=
    (congrArg delivered (delivery_placedFrom keccak256 s blockNumber blockHash 0 block).symm).trans (delivered_map _ _)
  have hplaced (p : PlacedDelivery κ) (hp : p ∈ places) :=
    log_of_mem_placedFrom keccak256 s blockNumber blockHash (mem_of_mem_delivered hp)
  have hindex (p : PlacedDelivery κ) (hp : p ∈ places) : p.delivery.event.logIndex.toNat = p.index % 2 ^ 32 := by
    rw [(hplaced p hp).1]
    exact BitVec.toNat_ofNat _ _
  have hposition (p : PlacedDelivery κ) (hp : p ∈ places) :
      p.delivery.event.logIndex.toNat = p.position ↔ p.before = 0 ∧ p.index < 2 ^ 32 := by
    rw [hindex p hp, PlacedDelivery.position]
    omega
  refine ⟨⟨hdeliveries, fun p hp => (hplaced p hp).2.2⟩, ?_, ?_⟩
  · rintro ⟨-, hpositions, -⟩ p hp
    exact (hposition p hp).mp (hpositions p hp)
  · intro hfirst
    have hpositions (p : PlacedDelivery κ) (hp : p ∈ places) := (hposition p hp).mpr (hfirst p hp)
    refine ⟨?_, hpositions, ?_⟩
    · have hblock := numbered_processBlockLogs keccak256 s blockNumber blockHash 0 block
      refine Eq.trans ?_ hblock.symm
      rw [hdeliveries, List.map_map]
      apply List.map_congr_left
      intro p hp
      have hevent := EthWatchService.block_of_mem_processReceipts s keccak256
        (show p.delivery ∈ deliveries from hdeliveries ▸ List.mem_map_of_mem hp)
      have hplace : p.delivery.event.logIndex = BitVec.ofNat _ p.position := by
        rw [(hplaced p hp).1, PlacedDelivery.position, (hfirst p hp).1, Nat.zero_add]
      show p.delivery.numbered = _
      unfold Delivery.numbered
      rw [hevent.1, hevent.2, hplace]
    · intro p hp q hq hne heq
      rw [← hpositions p hp, ← hpositions q hq, heq] at hne
      exact hne rfl

end

/-- Two receipts with one log each, for a subscription that gets both: both logs are delivered with the index zero. -/
theorem second_receipt_restarts_index :
    let log : LogEntry := ⟨default, [default], []⟩
    let receipt : Receipt := ⟨none, some true, 0, default, [log]⟩
    let s := (EthWatchService.run (fun _ => default) [.watchEvent default [] [] () none none]).1
    (s.processReceipts (fun _ => default) [receipt, receipt] [default, default] 7 default).map
      (fun d => d.event.logIndex) = [0, 0] ∧
      (s.deliver (fun _ => default) (s.watcher.processBlockLogs [log, log] 7 default)).map (fun d => d.event.logIndex) =
        [0, 1] := by
  decide

end DevP2P.Eth
