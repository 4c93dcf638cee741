import DevP2P.Eth.MessageRoundTrip
import DevP2P.Eth.ReceiptRequests
import DevP2P.Eth.Subscriptions

/-!
# From a request to the callbacks

* `Outstanding` : a request that no receipts have been taken for is still pending, over any run;
* `outstanding_request_is_served` : its answer is delivered to the live registrations, for the block that was asked for,
  unless the decoder reads outside a log of it.
-/

namespace DevP2P.Eth
open DevP2P.Lib DevP2P.Rlp DevP2P.Eth.Abi

variable {κ : Type}

/-- A request that was sent and that no receipts have been taken for is pending, as long as no id is used twice. -/
structure Outstanding (s : EthWatchService κ) (es : List (Effect κ)) : Prop where
  log : RequestLog s es
  pending : (requestIds es).length < 2 ^ 64 → ∀ id pending, Requested es id pending → id ∉ sources es →
    s.pendingRequests.lookup id = some pending

theorem Requested.of_append_receipts {es : List (Effect κ)} {id : Uint64} {pending : PendingRequest}
    {source : Option Uint64}
    {blockHash : Hash256} {blockNumber : Uint64} {deliveries : List (Delivery κ)}
    (h : Requested (es ++ [.receipts source blockHash blockNumber deliveries]) id pending) :
    Requested es id pending := by
  obtain ⟨payload, hencode, hmem⟩ := h
  refine ⟨payload, hencode, (List.mem_append.mp hmem).resolve_right ?_⟩
  simp

namespace Outstanding

variable {s : EthWatchService κ} {es : List (Effect κ)}

theorem request (h : Outstanding s es) (blockHash : Hash256) (blockNumber : Uint64) :
    Outstanding (s.afterRequest blockHash blockNumber) (es ++ [s.requestEffect blockHash blockNumber]) := by
  refine ⟨h.log.request blockHash blockNumber, ?_⟩
  intro hlt id pending hrequested hopen
  rw [requestIds_request, List.length_append, List.length_singleton] at hlt
  rw [sources_request] at hopen
  obtain ⟨payload, hencode, hmem⟩ := hrequested
  show (s.pendingRequests.insert s.nextReqId ⟨blockHash, blockNumber⟩).lookup id = some pending
  rcases List.mem_append.mp hmem with hold | hnew
  · have hold : Requested es id pending := ⟨payload, hencode, hold⟩
    have hne : id ≠ s.nextReqId := by
      rintro rfl
      exact h.log.next_not_mem hlt hold.mem
    rw [AList.lookup_insert_ne hne]
    exact h.pending (by omega) id pending hold hopen
  · obtain ⟨rfl, hhash, hnumber, -⟩ := Effect.request.inj (List.mem_singleton.mp hnew)
    obtain ⟨_, _⟩ := pending
    obtain rfl : _ = blockHash := hhash
    obtain rfl : _ = blockNumber := hnumber
    exact AList.lookup_insert _

theorem unknown (h : Outstanding s es) (blockHash : Hash256) (blockNumber : Uint64) (deliveries : List (Delivery κ)) :
    Outstanding s (es ++ [.receipts none blockHash blockNumber deliveries]) := by
  refine ⟨h.log.unknown blockHash blockNumber deliveries, ?_⟩
  intro hlt id pending hrequested hopen
  rw [requestIds_receipts] at hlt
  rw [sources_unknown] at hopen
  exact h.pending hlt id pending hrequested.of_append_receipts hopen

theorem supply (h : Outstanding s es) {id : Uint64} {pending : PendingRequest} {deliveries : List (Delivery κ)}
    (hlookup : s.pendingRequests.lookup id = some pending)
    (hd : ∀ d ∈ deliveries, d.event.blockHash = pending.blockHash ∧ d.event.blockNumber = pending.blockNumber) :
    Outstanding { s with pendingRequests := s.pendingRequests.erase id }
      (es ++ [.receipts (some id) pending.blockHash pending.blockNumber deliveries]) := by
  refine ⟨h.log.supply hlookup hd, ?_⟩
  intro hlt id' pending' hrequested hopen
  rw [requestIds_receipts] at hlt
  rw [sources_supply, List.mem_append, List.mem_singleton, not_or] at hopen
  show (s.pendingRequests.erase id).lookup id' = some pending'
  rw [AList.lookup_erase_ne hopen.2]
  exact h.pending hlt id' pending' hrequested.of_append_receipts hopen.1

theorem keeps : EthWatchService.Keeps (κ := κ) Outstanding where
  idle hsame h := ⟨keeps_requestLog.idle hsame h.log, hsame.pendingRequests ▸ h.pending⟩
  unknown blockHash blockNumber deliveries h := h.unknown blockHash blockNumber deliveries
  request _ _ h := h.request _ _
  supply hlookup hd h := h.supply hlookup hd

theorem run (keccak256 : Bytes → Hash256) (inputs : List (Input κ)) :
    Outstanding (EthWatchService.run keccak256 inputs).1 (EthWatchService.run keccak256 inputs).2 := by
  have hnil : Outstanding ({} : EthWatchService κ) [] := by
    refine ⟨RequestLog.nil, fun _ id pending hrequested => ?_⟩
    obtain ⟨payload, -, hmem⟩ := hrequested
    cases hmem
  exact keeps.runEffects hnil keccak256 inputs

end Outstanding

theorem processMessage_answer (keccak256 : Bytes → Hash256) {s : EthWatchService κ} {id : Uint64}
    {pending : PendingRequest}
    {receipts : List Receipt} {answer : ByteView} (hlookup : s.pendingRequests.lookup id = some pending)
    (hdecode : decodeReceipts answer = .ok ⟨some id, [receipts]⟩) :
    s.processMessage keccak256 kReceiptsMessageId answer = EthWatchService.handOut keccak256 (some id) receipts
      (receipts.map fun _ => default) pending.blockNumber pending.blockHash
      { s with pendingRequests := s.pendingRequests.erase id } := by
  have hpending : s.pendingFor (some id) 0 = some (id, pending) := by
    simp only [EthWatchService.pendingFor, if_pos, hlookup, Option.map_some]
  unfold EthWatchService.processMessage
  rw [if_neg (by decide), if_neg (by decide), if_pos rfl, hdecode]
  dsimp only
  rw [List.zipIdx_singleton, runEffects_singleton]
  unfold EthWatchService.processBlock
  simp only [hpending]

/-- **The answer to an outstanding request is delivered.** After any calls, let a request have been sent that no
receipts have been taken for, however many others are outstanding. Its message asks the peer for the block, under its
id. When the peer answers with the receipts of the block, each of their logs is delivered to exactly the live
registrations whose filter matches and whose parameters decode, with the number and hash of the block that was asked
for, and the request is forgotten. No log was read outside its data so far, and none of the answer is. -/
theorem outstanding_request_is_served (keccak256 : Bytes → Hash256) (inputs : List (Input κ)) {id : Uint64}
    {blockHash : Hash256}
    {blockNumber : Uint64} {receipts : List Receipt} (hfew : registrations inputs < 2 ^ 32)
    (hrunning : (EthWatchService.run keccak256 inputs).1.aborted = false)
    (hinside : ReadsInside keccak256 (registry inputs).live receipts (receipts.map fun _ => default) blockNumber)
    (hids : (requestIds (EthWatchService.run keccak256 inputs).2).length < 2 ^ 64)
    (hsent : Requested (EthWatchService.run keccak256 inputs).2 id ⟨blockHash, blockNumber⟩)
    (hopen : id ∉ sources (EthWatchService.run keccak256 inputs).2) (hnormal : ∀ receipt ∈ receipts, receipt.Normal)
    (hsize : (ReceiptsMessage.mk (some id) [receipts]).encoding.length < 2 ^ 64) :
    (∃ payload, .request id blockHash blockNumber kGetReceiptsMessageId payload ∈
      (EthWatchService.run keccak256 inputs).2 ∧
      decodeGetReceipts payload = .ok ⟨some id, [blockHash]⟩) ∧
    ∃ answer, encodeReceipts ⟨some id, [receipts]⟩ = .ok answer ∧
      let s := (EthWatchService.run keccak256 inputs).1
      s.processMessage keccak256 kReceiptsMessageId answer = ({ s with pendingRequests := s.pendingRequests.erase id },
        [.receipts (some id) blockHash blockNumber (deliveriesTo keccak256 (registry inputs).live receipts
          (receipts.map fun _ => default) blockNumber blockHash)]) := by
  obtain ⟨payload, hencode, hmem⟩ := hsent
  obtain ⟨b, hb, hdecode⟩ := getReceipts_round_trip (m := ⟨some id, [blockHash]⟩) rfl
    (EthWatchService.length_getReceipts_encoding_lt id blockHash)
  obtain rfl : payload = b := Except.ok.inj (hencode.symm.trans hb)
  obtain ⟨answer, hanswer, hdecodeAnswer⟩ := receipts_round_trip (m := ⟨some id, [receipts]⟩) rfl
    (by simpa using hnormal) hsize
  refine ⟨⟨payload, hmem, hdecode⟩, answer, hanswer, ?_⟩
  have hlookup := (Outstanding.run keccak256 inputs).pending hids id _ ⟨payload, hencode, hmem⟩ hopen
  have halign : Aligned keccak256 (EthWatchService.run keccak256 inputs).1 (registry inputs) := Aligned.run inputs
  have hreads :=
    (readsOutside_eq_false_iff keccak256 halign (nodup_ids_registry hfew) hrunning receipts _ blockNumber blockHash).mpr
      hinside
  have hdeliver := processReceipts_eq keccak256 halign (nodup_ids_registry hfew) hrunning receipts _ blockNumber
    blockHash hinside
  intro s
  -- the request that is forgotten plays no part in what comes of the events
  let s' := { s with pendingRequests := s.pendingRequests.erase id }
  have hsame : s'.readsOutside keccak256 receipts (receipts.map fun _ => default) blockNumber blockHash = false :=
    hreads
  rw [processMessage_answer keccak256 hlookup hdecodeAnswer, ← hdeliver]
  show s'.handOut keccak256 (some id) receipts (receipts.map fun _ => default) blockNumber blockHash = _
  unfold EthWatchService.handOut
  rw [hsame, Bool.or_false]
  rfl

def watchedRequest : List (Input Nat) := [.setSendCallback true, .watchEvent default [1] [] 9 none none,
    .requestReceipts (numberedHash 3) 7]

def watchedReceipt : Receipt := ⟨none, some true, 0, default, [⟨default, [default], []⟩]⟩

theorem outstanding_request_is_served_sample :
    (deliveriesTo (fun _ => default) (registry watchedRequest).live [watchedReceipt] [default] 7
      (numberedHash 3)).length = 1 ∧
    ∃ answer, encodeReceipts ⟨some 1, [[watchedReceipt]]⟩ = .ok answer ∧
      ((EthWatchService.run (fun _ => default) watchedRequest).1.processMessage
        (fun _ => default) kReceiptsMessageId answer).2 =
        [.receipts (some 1) (numberedHash 3) 7
          (deliveriesTo (fun _ => default) (registry watchedRequest).live [watchedReceipt] [default] 7
            (numberedHash 3))] := by
  obtain ⟨-, answer, hencode, hserved⟩ := outstanding_request_is_served (fun _ => default) watchedRequest (by decide)
    (by decide +kernel)
    (by unfold ReadsInside; decide +kernel) (by decide +kernel)
    ⟨_, EthWatchService.encodeGetReceipts_request 1 (numberedHash 3), List.mem_singleton.mpr rfl⟩ (by decide +kernel)
    (show ∀ receipt ∈ [watchedReceipt], receipt.Normal by simp [watchedReceipt, Receipt.Normal, Receipt.OneOutcome])
    (by decide +kernel)
  exact ⟨by decide +kernel, answer, hencode, congrArg Prod.snd hserved⟩

end DevP2P.Eth
