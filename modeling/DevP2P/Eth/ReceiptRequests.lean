import DevP2P.Eth.WatchService
import DevP2P.Lib.Counter

/-!
# Requests of receipts and their answers

* `requestIds`, `sources` : the ids of the requests that were sent, and of the requests whose block receipts were taken
  for;
* `RequestLog` : the pending requests are requests that were sent, with the ids `1, 2, ...` in order, and no request
  that receipts were taken for is pending; `keeps_requestLog` : every call keeps this;
* `receipts_attributed` : receipts are taken for the block of the request they answer, once; `request_id_wraps_around` :
  the counter of the request ids after `2 ^ 64 - 1` of them;
* `answered_requests_forgotten_iff` : an answered request is forgotten unless an answer to it has no blocks.
-/

namespace DevP2P.Eth
open DevP2P.Lib DevP2P.Rlp

variable {κ : Type}

def Effect.requestId? : Effect κ → Option Uint64
  | .request reqId _ _ _ _ => some reqId
  | .receipts _ _ _ _ => none

def Effect.source? : Effect κ → Option Uint64
  | .request _ _ _ _ _ => none
  | .receipts source _ _ _ => source

def requestIds (es : List (Effect κ)) : List Uint64 := es.filterMap Effect.requestId?

/-- The ids of the requests whose blocks receipts were taken for. -/
def sources (es : List (Effect κ)) : List Uint64 := es.filterMap Effect.source?

section

variable (es : List (Effect κ)) (blockHash : Hash256) (blockNumber : Uint64) (deliveries : List (Delivery κ))

@[simp] theorem requestIds_receipts (source : Option Uint64) :
    requestIds (es ++ [.receipts source blockHash blockNumber deliveries]) = requestIds es := by
  simp [requestIds, Effect.requestId?]

@[simp] theorem requestIds_request (s : EthWatchService κ) :
    requestIds (es ++ [s.requestEffect blockHash blockNumber]) = requestIds es ++ [s.nextReqId] := by
  simp [requestIds, Effect.requestId?, EthWatchService.requestEffect]

@[simp] theorem sources_unknown : sources (es ++ [.receipts none blockHash blockNumber deliveries]) = sources es := by
  simp [sources, Effect.source?]

@[simp] theorem sources_supply (id : Uint64) :
    sources (es ++ [.receipts (some id) blockHash blockNumber deliveries]) = sources es ++ [id] := by
  simp [sources, Effect.source?]

@[simp] theorem sources_request (s : EthWatchService κ) :
    sources (es ++ [s.requestEffect blockHash blockNumber]) = sources es := by
  simp [sources, Effect.source?, EthWatchService.requestEffect]

end

/-- A message with the request id `id` was sent for the block. -/
def Requested (es : List (Effect κ)) (id : Uint64) (pending : PendingRequest) : Prop :=
  ∃ payload, encodeGetReceipts ⟨some id, [pending.blockHash]⟩ = .ok payload ∧
    .request id pending.blockHash pending.blockNumber kGetReceiptsMessageId payload ∈ es

theorem Requested.append {es : List (Effect κ)} {id : Uint64} {pending : PendingRequest} (h : Requested es id pending)
    (fs : List (Effect κ)) : Requested (es ++ fs) id pending := by
  obtain ⟨payload, hencode, hmem⟩ := h
  exact ⟨payload, hencode, List.mem_append_left fs hmem⟩

theorem Requested.mem {es : List (Effect κ)} {id : Uint64} {pending : PendingRequest} (h : Requested es id pending) :
    id ∈ requestIds es := by
  obtain ⟨payload, -, hmem⟩ := h
  exact List.mem_filterMap.mpr ⟨_, hmem, rfl⟩

theorem requested_requestEffect (s : EthWatchService κ) (es : List (Effect κ)) (blockHash : Hash256)
    (blockNumber : Uint64) :
    Requested (es ++ [s.requestEffect blockHash blockNumber]) s.nextReqId ⟨blockHash, blockNumber⟩ :=
  ⟨_, EthWatchService.encodeGetReceipts_request _ _, List.mem_append_right es (List.mem_singleton.mpr rfl)⟩

/-- What an effect says about the effects before it: receipts that are taken for the block of a request follow the
request. -/
def Attributed (before : List (Effect κ)) : Effect κ → Prop
  | .receipts (some id) blockHash blockNumber deliveries => Requested before id ⟨blockHash, blockNumber⟩ ∧
      ∀ d ∈ deliveries, d.event.blockHash = blockHash ∧ d.event.blockNumber = blockNumber
  | _ => True

structure RequestLog (s : EthWatchService κ) (es : List (Effect κ)) : Prop where
  next : s.nextReqId = idOf (requestIds es).length
  ids : requestIds es = (List.range (requestIds es).length).map idOf
  recorded : ∀ id pending, s.pendingRequests.lookup id = some pending → Requested es id pending
  attributed : ∀ before e after, es = before ++ e :: after → Attributed before e
  supplied : ∀ id ∈ sources es, id ∈ requestIds es
  /-- As long as no id is used twice. -/
  once : (requestIds es).length < 2 ^ 64 → (sources es).Nodup ∧ ∀ id ∈ sources es, id ∉ s.pendingRequests

/-- One more effect, after effects that satisfy `P` with all before them. -/
theorem forall_split_concat {α : Type} {P : List α → α → Prop} {es : List α} {e : α}
    (h : ∀ before x after, es = before ++ x :: after → P before x) (he : P es e) :
    ∀ before x after, es ++ [e] = before ++ x :: after → P before x := by
  intro before x after heq
  rcases List.eq_nil_or_concat after with rfl | ⟨after, y, rfl⟩
  · obtain ⟨rfl, hx⟩ := List.append_inj' heq rfl
    rwa [← List.singleton_inj.mp hx]
  · rw [List.concat_eq_append, ← List.cons_append, ← List.append_assoc] at heq
    exact h before x after (List.append_inj' heq rfl).1

namespace RequestLog

variable {s : EthWatchService κ} {es : List (Effect κ)}

theorem nil : RequestLog ({} : EthWatchService κ) [] where
  next := rfl
  ids := rfl
  recorded id pending h := by simp at h
  attributed before e after h := by simp at h
  supplied id h := by simp [sources] at h
  once _ := ⟨List.nodup_nil, by simp [sources]⟩

theorem next_not_mem (h : RequestLog s es) (hlt : (requestIds es).length + 1 < 2 ^ 64) :
    s.nextReqId ∉ requestIds es := by
  have hids : requestIds es = (List.range (requestIds es).length).map idOf := h.ids
  rw [h.next, hids, List.length_map, List.length_range]
  exact idOf_not_mem le_rfl hlt

theorem request (h : RequestLog s es) (blockHash : Hash256) (blockNumber : Uint64) :
    RequestLog (s.afterRequest blockHash blockNumber) (es ++ [s.requestEffect blockHash blockNumber]) where
  next := by
    rw [requestIds_request, List.length_append, List.length_singleton]
    show s.nextReqId + 1 = _
    rw [h.next, idOf_add_one]
  ids := by
    rw [requestIds_request, List.length_append, List.length_singleton, List.range_succ, List.map_append,
      ← h.ids, h.next]
    rfl
  recorded id pending hlookup := by
    by_cases hid : id = s.nextReqId
    · subst hid
      have : some (⟨blockHash, blockNumber⟩ : PendingRequest) = some pending := by
        rw [← hlookup]
        exact (AList.lookup_insert s.pendingRequests).symm
      obtain rfl := Option.some.inj this
      exact requested_requestEffect s es blockHash blockNumber
    · have hold : s.pendingRequests.lookup id = some pending := (AList.lookup_insert_ne hid).symm.trans hlookup
      exact (h.recorded id pending hold).append _
  attributed := forall_split_concat h.attributed trivial
  supplied id hid := by
    rw [sources_request] at hid
    rw [requestIds_request]
    exact List.mem_append_left _ (h.supplied id hid)
  once hlt := by
    rw [requestIds_request, List.length_append, List.length_singleton] at hlt
    rw [sources_request]
    obtain ⟨hnodup, hpending⟩ := h.once (by omega)
    refine ⟨hnodup, ?_⟩
    intro id hid hmem
    rcases (AList.mem_insert _).mp hmem with rfl | hmem
    · exact h.next_not_mem hlt (h.supplied _ hid)
    · exact hpending id hid hmem

theorem unknown (h : RequestLog s es) (blockHash : Hash256) (blockNumber : Uint64) (deliveries : List (Delivery κ)) :
    RequestLog s (es ++ [.receipts none blockHash blockNumber deliveries]) where
  next := by rw [requestIds_receipts, h.next]
  ids := by rw [requestIds_receipts, ← h.ids]
  recorded id pending hlookup := (h.recorded id pending hlookup).append _
  attributed := forall_split_concat h.attributed trivial
  supplied id hid := by
    rw [sources_unknown] at hid
    rw [requestIds_receipts]
    exact h.supplied id hid
  once hlt := by
    rw [requestIds_receipts] at hlt
    rw [sources_unknown]
    exact h.once hlt

theorem supply (h : RequestLog s es) {id : Uint64} {pending : PendingRequest} {deliveries : List (Delivery κ)}
    (hlookup : s.pendingRequests.lookup id = some pending)
    (hd : ∀ d ∈ deliveries, d.event.blockHash = pending.blockHash ∧ d.event.blockNumber = pending.blockNumber) :
    RequestLog { s with pendingRequests := s.pendingRequests.erase id }
      (es ++ [.receipts (some id) pending.blockHash pending.blockNumber deliveries]) where
  next := by rw [requestIds_receipts, ← h.next]
  ids := by rw [requestIds_receipts, ← h.ids]
  recorded id' pending' hlookup' := by
    by_cases hid : id' = id
    · subst hid
      rw [AList.lookup_erase] at hlookup'
      cases hlookup'
    · rw [AList.lookup_erase_ne hid] at hlookup'
      exact (h.recorded id' pending' hlookup').append _
  attributed := forall_split_concat h.attributed ⟨h.recorded id pending hlookup, hd⟩
  supplied id' hid' := by
    rw [sources_supply] at hid'
    rw [requestIds_receipts]
    rcases List.mem_append.mp hid' with hid' | hid'
    · exact h.supplied id' hid'
    · rw [List.mem_singleton.mp hid']
      exact (h.recorded id pending hlookup).mem
  once hlt := by
    rw [requestIds_receipts] at hlt
    rw [sources_supply]
    obtain ⟨hnodup, hpending⟩ := h.once hlt
    have hmem : id ∈ s.pendingRequests := AList.lookup_isSome.mp (Option.isSome_iff_exists.mpr ⟨pending, hlookup⟩)
    refine ⟨nodup_concat hnodup fun hid => hpending id hid hmem, ?_⟩
    intro id' hid' hmem'
    obtain ⟨hne, hmem'⟩ := AList.mem_erase.mp hmem'
    rcases List.mem_append.mp hid' with hid' | hid'
    · exact hpending id' hid' hmem'
    · exact hne (List.mem_singleton.mp hid')

end RequestLog

theorem keeps_requestLog : EthWatchService.Keeps (κ := κ) RequestLog where
  idle hsame h := ⟨hsame.nextReqId.trans h.next, h.ids, hsame.pendingRequests ▸ h.recorded, h.attributed, h.supplied,
    hsame.pendingRequests ▸ h.once⟩
  unknown blockHash blockNumber deliveries h := h.unknown blockHash blockNumber deliveries
  request _ _ h := h.request _ _
  supply hlookup hd h := h.supply hlookup hd

theorem requestLog_run (keccak256 : Bytes → Hash256) (inputs : List (Input κ)) :
    RequestLog (EthWatchService.run keccak256 inputs).1 (EthWatchService.run keccak256 inputs).2 := by
  have h := keeps_requestLog.runEffects RequestLog.nil keccak256 inputs
  rwa [List.nil_append] at h

theorem source_of_mem_requestReceipts (s : EthWatchService κ) (blockHash : Hash256) (blockNumber : Uint64) :
    ∀ e ∈ (s.requestReceipts blockHash blockNumber).2, e.source? = none := by
  intro e he
  rcases s.requestReceipts_cases blockHash blockNumber with heq | ⟨-, -, heq⟩
  · simp [heq] at he
  · rw [heq] at he
    rw [List.mem_singleton.mp he]
    rfl

theorem source_of_mem_processBlock (keccak256 : Bytes → Hash256) (requestId : Option Uint64) (s : EthWatchService κ)
    (block : List Receipt × Nat) : ∀ e ∈ (s.processBlock keccak256 requestId block).2, ∀ id, e.source? = some id →
      requestId = some id := by
  intro e he id hsource
  rcases s.processBlock_cases keccak256 requestId block with ⟨-, _, _, heq⟩ | ⟨id', _, _, _, -, hrequestId, -, -, heq⟩
  · rw [heq] at he
    rw [List.mem_singleton.mp he] at hsource
    cases hsource
  · rw [heq] at he
    rw [List.mem_singleton.mp he] at hsource
    rw [hrequestId]
    exact hsource

theorem message_of_source (keccak256 : Bytes → Hash256) {s : EthWatchService κ} {input : Input κ} {id : Uint64}
    {blockHash : Hash256}
    {blockNumber : Uint64} {deliveries : List (Delivery κ)}
    (h : .receipts (some id) blockHash blockNumber deliveries ∈ (s.step keccak256 input).2) :
    ∃ payload receipts, input = .processMessage kReceiptsMessageId payload ∧
      decodeReceipts payload = .ok ⟨some id, receipts⟩ := by
  have hnone {es : List (Effect κ)} (hes : ∀ e ∈ es, e.source? = none) :
      .receipts (some id) blockHash blockNumber deliveries ∉ es := fun hmem => nomatch hes _ hmem
  cases input with
  | setSendCallback cb => cases h
  | watchEvent contractAddress eventSignature params callback fromBlock toBlock => cases h
  | unwatch id => cases h
  | requestReceipts hash number => exact absurd h (hnone (source_of_mem_requestReceipts s hash number))
  | processReceipts receipts txHashes number hash =>
      cases List.mem_singleton.mp h
  | processNewBlock msg hash => exact absurd h (hnone (source_of_mem_requestReceipts s hash msg.header.number))
  | processMessage ethMsgId payload =>
      change _ ∈ (s.processMessage keccak256 ethMsgId payload).2 at h
      unfold EthWatchService.processMessage at h
      split_ifs at h with hhashes hblock hreceipts
      · cases hdecode : decodeNewBlockHashes payload with
        | error e => simp [hdecode] at h
        | ok msg =>
            rw [hdecode] at h
            have hall : ∀ e ∈ (runEffects (fun s (entry : NewBlockHashEntry) =>
              s.requestReceipts entry.hash entry.number)
                s msg.entries).2, e.source? = none :=
              runEffects_forall fun entry _ s => source_of_mem_requestReceipts s entry.hash entry.number
            exact absurd h (hnone hall)
      · cases hdecode : decodeNewBlock payload with
        | error e => simp [hdecode] at h
        | ok msg =>
            rw [hdecode] at h
            exact absurd h (hnone (source_of_mem_requestReceipts s default msg.header.number))
      · cases hdecode : decodeReceipts payload with
        | error e => simp [hdecode] at h
        | ok msg =>
            rw [hdecode] at h
            have hid : ∀ e ∈ (runEffects (EthWatchService.processBlock keccak256 msg.requestId) s
              msg.receipts.zipIdx).2,
                ∀ id, e.source? = some id → msg.requestId = some id :=
              runEffects_forall fun block _ s => source_of_mem_processBlock keccak256 msg.requestId s block
            refine ⟨payload, msg.receipts, by rw [hreceipts], ?_⟩
            rw [hdecode, ← hid _ h id rfl]
      · cases h

/-! ## Attribution -/

/-- Over any calls that send fewer than `2 ^ 64` requests, receipts are taken for the block of the request that they
answer and that was sent before; every request supplies its block once at most; and the ids of the pending requests are
ids of requests, all different, and smaller than the next one unless all ids but zero are used up. -/
theorem receipts_attributed (keccak256 : Bytes → Hash256) (inputs : List (Input κ))
    (hrequests : (requestIds (EthWatchService.run keccak256 inputs).2).length < 2 ^ 64) :
    let (s, effects) := EthWatchService.run keccak256 inputs
    (∀ before id blockHash blockNumber deliveries after,
        effects = before ++ .receipts (some id) blockHash blockNumber deliveries :: after →
        (∃ payload, encodeGetReceipts ⟨some id, [blockHash]⟩ = .ok payload ∧
          .request id blockHash blockNumber kGetReceiptsMessageId payload ∈ before) ∧
        ∀ d ∈ deliveries, d.event.blockHash = blockHash ∧ d.event.blockNumber = blockNumber) ∧
      (∀ before input after, inputs = before ++ input :: after → ∀ id blockHash blockNumber deliveries,
        .receipts (some id) blockHash blockNumber deliveries ∈
          ((EthWatchService.run keccak256 before).1.step keccak256 input).2 →
        ∃ payload receipts, input = .processMessage kReceiptsMessageId payload ∧
          decodeReceipts payload = .ok ⟨some id, receipts⟩) ∧
      (sources effects).Nodup ∧ (requestIds effects).Nodup ∧ s.pendingRequests.keys.Nodup ∧
      (∀ id ∈ s.pendingRequests, id ∈ requestIds effects ∧
        ((requestIds effects).length + 1 < 2 ^ 64 → id < s.nextReqId)) := by
  have hlog := requestLog_run keccak256 inputs
  generalize EthWatchService.run keccak256 inputs = run at hlog hrequests
  obtain ⟨s, effects⟩ := run
  dsimp only at hlog hrequests ⊢
  have hids : requestIds effects = (List.range (requestIds effects).length).map idOf := hlog.ids
  refine ⟨?_, ?_, (hlog.once hrequests).1, ?_, s.pendingRequests.keys_nodup, ?_⟩
  · intro before id blockHash blockNumber deliveries after heq
    exact hlog.attributed before _ after heq
  · intro before input after _ id blockHash blockNumber deliveries hmem
    exact message_of_source keccak256 hmem
  · rw [hids]
    exact nodup_ids hrequests
  · intro id hid
    obtain ⟨pending, hlookup⟩ := Option.isSome_iff_exists.mp (AList.lookup_isSome.mpr hid)
    have hmem := (hlog.recorded id pending hlookup).mem
    refine ⟨hmem, ?_⟩
    intro hlt
    rw [hids] at hmem
    obtain ⟨i, hi, rfl⟩ := List.mem_map.mp hmem
    have hi := List.mem_range.mp hi
    have hnext : (idOf (requestIds effects).length : Uint64).toNat = (requestIds effects).length + 1 := toNat_idOf hlt
    have hid : (idOf i : Uint64).toNat = i + 1 := toNat_idOf (lt_of_le_of_lt (by omega) hlt)
    rw [hlog.next, BitVec.lt_def, hnext, hid]
    omega

/-- A request, its answer, and the same answer again. -/
theorem receipts_attributed_twice :
    let inputs : List (Input Unit) := [.setSendCallback true, .requestReceipts default 7,
      .processMessage kReceiptsMessageId [0xC3, 0x01, 0xC1, 0xC0],
      .processMessage kReceiptsMessageId [0xC3, 0x01, 0xC1, 0xC0]]
    let effects := (EthWatchService.run (fun _ => default) inputs).2
    effects.length = 3 ∧ sources effects = [1] ∧ (sources effects).Nodup :=
  ⟨by decide +kernel, by decide +kernel, (receipts_attributed (fun _ => default) _ (by decide +kernel)).2.2.1⟩

/-- The hash with the number `i`. -/
def numberedHash (i : Nat) : Hash256 := ⟨beStore 32 i, length_beStore 32 i⟩

theorem numberedHash_inj {i j : Nat} (hi : i < 256 ^ 32) (hj : j < 256 ^ 32) (h : numberedHash i = numberedHash j) :
    i = j := by
  have hload := congrArg (fun hash => beLoad hash.bytes) h
  unfold numberedHash at hload
  rwa [beLoad_beStore_of_lt hi, beLoad_beStore_of_lt hj] at hload

/-- A service that was asked for the receipts of `k` different blocks. -/
structure Asked (k : Nat) (s : EthWatchService κ) (es : List (Effect κ)) : Prop where
  sendCb : s.sendCb = true
  tracks : ∃ accepted, Tracks s.chainTracker accepted ∧ accepted.map Prod.fst = (List.range k).map numberedHash
  sent : (requestIds es).length = k
  first : 0 < k → 1 ∈ s.pendingRequests

theorem Asked.next {k : Nat} {s : EthWatchService κ} {es : List (Effect κ)} (h : Asked k s es) (hlog : RequestLog s es)
    (hk : k < 256 ^ 32) :
    Asked (k + 1) (s.requestReceipts (numberedHash k) 0).1 (es ++ (s.requestReceipts (numberedHash k) 0).2) := by
  obtain ⟨accepted, htracks, hhashes⟩ := h.tracks
  have hnew : (s.chainTracker.markSeen (numberedHash k) 0).1 = true := by
    rw [← Bool.not_eq_false, htracks.markSeen_eq_false_iff, Acceptances.window, hhashes]
    intro hmem
    obtain ⟨i, hi, heq⟩ := List.mem_map.mp (List.mem_of_mem_drop hmem)
    have hi := List.mem_range.mp hi
    have := numberedHash_inj (by omega) hk heq
    omega
  rw [s.requestReceipts_of_new h.sendCb hnew]
  refine ⟨h.sendCb, ⟨_, htracks.markSeen (numberedHash k) 0, ?_⟩, ?_, ?_⟩
  · rw [if_pos hnew, List.map_append, hhashes, List.range_succ, List.map_append]
    rfl
  · rw [requestIds_request, List.length_append, h.sent]
    rfl
  · intro _
    apply (AList.mem_insert _).mpr
    rcases Nat.eq_zero_or_pos k with rfl | hpos
    · left
      rw [hlog.next, h.sent]
      rfl
    · exact .inr (h.first hpos)

theorem exists_asked (keccak256 : Bytes → Hash256) {k : Nat} (hk : k ≤ 256 ^ 32) :
    ∃ inputs : List (Input κ), Asked k (EthWatchService.run keccak256 inputs).1
      (EthWatchService.run keccak256 inputs).2 := by
  induction k with
  | zero =>
      refine ⟨[.setSendCallback true], rfl, ⟨[], Tracks.new _, rfl⟩, rfl, fun h => absurd h (lt_irrefl 0)⟩
  | succ k ih =>
      obtain ⟨inputs, h⟩ := ih (by omega)
      refine ⟨inputs ++ [.requestReceipts (numberedHash k) 0], ?_⟩
      have hnext := h.next (requestLog_run keccak256 inputs) (by omega)
      unfold EthWatchService.run at hnext ⊢
      rw [runEffects_append, runEffects_singleton]
      exact hnext

/-- After `2 ^ 64 - 1` requests the next id is zero, and the first request may still be pending. -/
theorem request_id_wraps_around : ∃ inputs : List (Input Unit),
    let (s, effects) := EthWatchService.run (fun _ => default) inputs
    (requestIds effects).length < 2 ^ 64 ∧ ∃ id ∈ s.pendingRequests, ¬ id < s.nextReqId := by
  obtain ⟨k, hk⟩ : ∃ k, k = 2 ^ 64 - 1 := ⟨_, rfl⟩
  have hpos : 0 < k := by omega
  have hlt : k ≤ 256 ^ 32 := by omega
  obtain ⟨inputs, h⟩ := exists_asked (κ := Unit) (fun _ => default) hlt
  have hnext := (requestLog_run (fun _ => default) inputs).next
  rw [h.sent] at hnext
  have hzero : (idOf k : Uint64) = 0 := by
    rw [hk]
    decide
  refine ⟨inputs, lt_of_eq_of_lt h.sent (by omega), 1, h.first hpos, ?_⟩
  show ¬ 1 < (EthWatchService.run (fun _ => default) inputs).1.nextReqId
  rw [hnext, hzero]
  decide

/-! ## Answers -/

theorem not_mem_processBlock (keccak256 : Bytes → Hash256) {s : EthWatchService κ} {id : Uint64}
    (requestId : Option Uint64)
    (block : List Receipt × Nat) (h : id ∉ s.pendingRequests) :
    id ∉ (s.processBlock keccak256 requestId block).1.pendingRequests := by
  rcases s.processBlock_cases keccak256 requestId block with ⟨-, _, _, heq⟩ | ⟨_, _, _, _, -, -, -, -, heq⟩
  · rwa [heq]
  · rw [heq]
    exact fun hmem => h (AList.mem_erase.mp hmem).2

theorem not_mem_processBlock_first (keccak256 : Bytes → Hash256) (s : EthWatchService κ) (id : Uint64)
    (blockReceipts : List Receipt) :
    id ∉ (s.processBlock keccak256 (some id) (blockReceipts, 0)).1.pendingRequests := by
  rcases s.processBlock_cases keccak256 (some id) (blockReceipts, 0) with ⟨hnone, _, _, heq⟩ | ⟨id', _, _, _, -,
    hid, -, -, heq⟩
  · rw [heq]
    have hlookup : s.pendingRequests.lookup id = none := by
      simpa [EthWatchService.pendingFor] using hnone
    exact AList.lookup_eq_none.mp hlookup
  · obtain rfl := Option.some.inj hid
    rw [heq]
    exact fun hmem => (AList.mem_erase.mp hmem).1 rfl

theorem mem_pending_answer (keccak256 : Bytes → Hash256) (s : EthWatchService κ) {payload : ByteView} {id : Uint64}
    {receipts : List (List Receipt)} (hdecode : decodeReceipts payload = .ok ⟨some id, receipts⟩) :
    id ∈ (s.step keccak256 (.processMessage kReceiptsMessageId payload)).1.pendingRequests ↔
      receipts = [] ∧ id ∈ s.pendingRequests := by
  have hstep : s.step keccak256 (.processMessage kReceiptsMessageId payload) =
      runEffects (EthWatchService.processBlock keccak256 (some id)) s receipts.zipIdx := by
    show s.processMessage keccak256 kReceiptsMessageId payload = _
    unfold EthWatchService.processMessage
    rw [if_neg (by decide), if_neg (by decide), if_pos rfl, hdecode]
  rw [hstep]
  cases receipts with
  | nil => simp
  | cons blockReceipts receipts =>
      rw [List.zipIdx_cons, runEffects_cons]
      simp only [reduceCtorEq, false_and, iff_false]
      exact runEffects_state (I := fun s : EthWatchService κ => id ∉ s.pendingRequests)
        (fun block _ s h => not_mem_processBlock keccak256 (some id) block h)
          (not_mem_processBlock_first keccak256 s id blockReceipts)

theorem mem_pending_runEffects (keccak256 : Bytes → Hash256) {s : EthWatchService κ} {id : Uint64}
    (h : id ∉ s.pendingRequests)
    (inputs : List (Input κ))
    (hmem : id ∈ (runEffects (EthWatchService.step keccak256) s inputs).1.pendingRequests) :
    id ∈ requestIds (runEffects (EthWatchService.step keccak256) s inputs).2 := by
  have hkeeps : EthWatchService.Keeps (κ := κ) fun s es => id ∈ s.pendingRequests → id ∈ requestIds es := {
    idle := fun hsame h hmem => h (hsame.pendingRequests ▸ hmem)
    unknown := fun _ _ _ h hmem => by
      rw [requestIds_receipts]
      exact h hmem
    request := fun _ _ h hmem => by
      rw [requestIds_request]
      rcases (AList.mem_insert _).mp hmem with rfl | hmem
      · exact List.mem_append_right _ (List.mem_singleton.mpr rfl)
      · exact List.mem_append_left _ (h hmem)
    supply := fun _ _ h hmem => by
      rw [requestIds_receipts]
      exact h (AList.mem_erase.mp hmem).2 }
  have hstart : id ∈ s.pendingRequests → id ∈ requestIds ([] : List (Effect κ)) := fun hmem => absurd hmem h
  have hrun := hkeeps.runEffects hstart keccak256 inputs hmem
  rwa [List.nil_append] at hrun

/-- After every answer in `inputs`, its request is not pending, and is not again before a request with its id is
sent. -/
def AnswersForgotten (keccak256 : Bytes → Hash256) (inputs : List (Input κ)) : Prop :=
  ∀ before payload between rest id receipts, inputs = before ++ .processMessage kReceiptsMessageId payload ::
    (between ++ rest) →
    decodeReceipts payload = .ok ⟨some id, receipts⟩ →
    let s := ((EthWatchService.run keccak256 before).1.step keccak256 (.processMessage kReceiptsMessageId payload)).1
    id ∉ s.pendingRequests ∧
      (id ∈ (runEffects (EthWatchService.step keccak256) s between).1.pendingRequests →
        id ∈ requestIds (runEffects (EthWatchService.step keccak256) s between).2)

/-- No answer in `inputs` without blocks carries the id of a request that is pending. -/
def NoEmptyAnswer (keccak256 : Bytes → Hash256) (inputs : List (Input κ)) : Prop :=
  ∀ before payload after id, inputs = before ++ .processMessage kReceiptsMessageId payload :: after →
    decodeReceipts payload = .ok ⟨some id, []⟩ → id ∉ (EthWatchService.run keccak256 before).1.pendingRequests

theorem answered_requests_forgotten_iff (keccak256 : Bytes → Hash256) (inputs : List (Input κ)) :
    AnswersForgotten keccak256 inputs ↔ NoEmptyAnswer keccak256 inputs := by
  constructor
  · intro h before payload after id heq hdecode hmem
    obtain ⟨hforgotten, -⟩ := h before payload [] after id [] heq hdecode
    exact hforgotten ((mem_pending_answer keccak256 _ hdecode).mpr ⟨rfl, hmem⟩)
  · intro h before payload between rest id receipts heq hdecode
    have hforgotten : id ∉ ((EthWatchService.run keccak256 before).1.step keccak256
        (.processMessage kReceiptsMessageId payload)).1.pendingRequests := by
      intro hmem
      obtain ⟨rfl, hmem⟩ := (mem_pending_answer keccak256 _ hdecode).mp hmem
      exact h before payload (between ++ rest) id heq hdecode hmem
    exact ⟨hforgotten, mem_pending_runEffects keccak256 hforgotten between⟩

/-- A request that is answered with no blocks stays on the list. -/
theorem empty_answer_keeps_request :
    decodeReceipts [0xC2, 0x01, 0xC0] = .ok ⟨some 1, []⟩ ∧
      1 ∈ (EthWatchService.run (κ := Unit) (fun _ => default) [.setSendCallback true, .requestReceipts default 7,
        .processMessage kReceiptsMessageId [0xC2, 0x01, 0xC0]]).1.pendingRequests := by
  refine ⟨by decide +kernel, by decide +kernel⟩

end DevP2P.Eth
