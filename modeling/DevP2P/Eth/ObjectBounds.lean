import DevP2P.Eth.ObjectExact
import DevP2P.Eth.StatusCodec

/-!
# Reads past the end of a list

The decoders of objects read a list header and then the fields, from whatever bytes follow: the length that the header
declares is compared with the bytes that are there, and not used again.

* `Items k q rest` : `q` starts with `k` complete items;
* `StaysInside` : what is decoded is also decoded from the list alone, and nothing behind the list is consumed;
* `StatusItems` : the items of a status message, from its version;
* `decoders_stay_inside_iff` : this holds exactly if the list has an item for each field of the layout its bytes have.
-/

namespace DevP2P.Eth
open DevP2P.Lib DevP2P.Rlp Stateful

/-- `q` is `k` complete items, then `rest`. -/
def Items (k : Nat) (q rest : Bytes) : Prop :=
  ∃ items : List Bytes, items.length = k ∧ (∀ item ∈ items, IsItem item) ∧ q = items.flatten ++ rest

/-- The list at the front of `b` has the payload `q` and ends at `n`. -/
def ListEndsAt (b q : Bytes) (n : Nat) : Prop :=
  q.length < kSizeModulus ∧ n = (encodeList q).length ∧ encodeList q <+: b

/-- The list at the front of `b`, or behind its first byte if this is a type byte, has the payload `q` and ends at
`n`. -/
def TransactionEndsAt (b q : Bytes) (n : Nat) : Prop :=
  ListEndsAt b q n ∨ ∃ (t : UInt8) (c : Bytes), b = t :: c ∧ t.toNat < kRlpListPrefixMin ∧
    ListEndsAt c q (n - 1) ∧ 0 < n

/-- What is decoded from `b` is decoded from its first `n` bytes, and nothing behind these is consumed. -/
def StaysInside {α : Type} (read : DecodeM α) (decode : ByteView → DecodeResult α) (b : Bytes) (n : Nat) : Prop :=
  (∀ v, decode b = .ok v → decode (b.take n) = .ok v) ∧
    ∀ v rest, read ⟨b⟩ = .ok v ⟨rest⟩ → b.length ≤ rest.length + n

/-- How many items a status message has in front of its fork id and behind it, from the version at the front of its
list. -/
def statusCounts (q : Bytes) : Nat × Nat :=
  if (Bytes.at q 0).toNat = kEthProtocolVersion69.toNat then (3, 3) else (5, 0)

/-- The items of a status message: those in front of the fork id, a fork id that ends inside `q`, and those behind its
header. -/
def StatusItems (q : Bytes) : Prop :=
  ∃ k content, k < kSizeModulus ∧ k ≤ content.length ∧ Items (statusCounts q).1 q (headerBytes true k ++ content) ∧
    ∃ x, Items (2 + (statusCounts q).2) content x

/-! ## Cutting a list -/

theorem items_of_concat {fs : List Field} {p : Bytes} (hp : Concat Field.Reads fs p) (rest : Bytes) :
    Items fs.length (p ++ rest) rest := by
  obtain ⟨ps, hps, rfl⟩ := hp
  exact ⟨ps, hps.length_eq.symm, forall_mem_of_forall₂ hps fun _ _ h => h.isItem, rfl⟩

/-- Fields that are read from `q` and what follows it are the first items of `q`. -/
theorem eq_of_items {fs : List Field} {p q r x rest : Bytes} (hp : Concat Field.Reads fs p) (hq : Items fs.length q x)
    (h : q ++ r = p ++ rest) : q = p ++ x ∧ rest = x ++ r := by
  obtain ⟨ps, hps, rfl⟩ := hp
  obtain ⟨items, hlen, hitems, rfl⟩ := hq
  rw [List.append_assoc] at h
  obtain ⟨rfl, hrest⟩ := isItem_prefixFree.flatten_append_inj hitems (forall_mem_of_forall₂ hps fun _ _ h => h.isItem)
    (hlen.trans hps.length_eq) h
  exact ⟨rfl, hrest.symm⟩

theorem opens_of_items {fs : List Field} {n : Nat} {p q r rest x : Bytes} (hq : q.length < kSizeModulus)
    (hopens : Opens n p rest (encodeList q ++ r)) (hp : Concat Field.Reads fs p) (hitems : Items fs.length q x) :
    rest = x ++ r ∧ Opens q.length p x (encodeList q) := by
  obtain ⟨-, heq⟩ := eq_of_opens hq hopens
  obtain ⟨hpx, hrest⟩ := eq_of_items hp hitems heq
  exact ⟨hrest, hq, by rw [hpx], by rw [encodeList, ← hpx]⟩

theorem items_of_opens {fs : List Field} {n : Nat} {p q x : Bytes} (hq : q.length < kSizeModulus)
    (hopens : Opens n p x (encodeList q)) (hp : Concat Field.Reads fs p) : Items fs.length q x := by
  rw [← List.append_nil (encodeList q)] at hopens
  obtain ⟨-, heq⟩ := eq_of_opens hq hopens
  rw [List.append_nil] at heq
  rw [heq]
  exact items_of_concat hp x

theorem Items.of_le {j k : Nat} {q x : Bytes} (h : Items k q x) (hle : j ≤ k) : ∃ y, Items j q y := by
  obtain ⟨items, hlen, hitems, rfl⟩ := h
  refine ⟨(items.drop j).flatten ++ x, items.take j, by rw [List.length_take]; omega,
    fun item h => hitems item (List.mem_of_mem_take h), ?_⟩
  rw [← List.append_assoc, ← List.flatten_append, List.take_append_drop]

/-- A decoder stays inside `c` if it reads `c` alone whenever `C` holds, and `C` holds of what it reads from `c` as
well. -/
theorem staysInside_iff {α : Type} {read : DecodeM α} {decode : ByteView → DecodeResult α} {C : Prop} {c r : Bytes}
    (hdecode : ∀ b, decode b = Stateful.outcome (read ⟨b⟩))
    (hcut : ∀ v rest, read ⟨c ++ r⟩ = .ok v ⟨rest⟩ → C → ∃ x, rest = x ++ r ∧ read ⟨c⟩ = .ok v ⟨x⟩)
    (hread : ∀ v rest x, read ⟨c ++ r⟩ = .ok v ⟨rest⟩ → read ⟨c⟩ = .ok v ⟨x⟩ → C) :
    StaysInside read decode (c ++ r) c.length ↔ ((∃ v, decode (c ++ r) = .ok v) → C) := by
  unfold StaysInside
  rw [List.take_left]
  refine ⟨?_, ?_⟩
  · rintro ⟨hsame, -⟩ ⟨v, hv⟩
    have hv' := hsame v hv
    rw [hdecode] at hv hv'
    obtain ⟨⟨rest⟩, hrest⟩ := outcome_eq_ok.mp hv
    obtain ⟨⟨x⟩, hx⟩ := outcome_eq_ok.mp hv'
    exact hread v rest x hrest hx
  · intro hC
    have hinside (v : α) (rest : Bytes) (hv : read ⟨c ++ r⟩ = .ok v ⟨rest⟩) :=
      hcut v rest hv (hC ⟨v, (hdecode _).trans (outcome_eq_ok.mpr ⟨_, hv⟩)⟩)
    refine ⟨?_, ?_⟩
    · intro v hv
      rw [hdecode] at hv ⊢
      obtain ⟨⟨rest⟩, hrun⟩ := outcome_eq_ok.mp hv
      obtain ⟨x, -, hx⟩ := hinside v rest hrun
      exact outcome_eq_ok.mpr ⟨_, hx⟩
    · intro v rest hrun
      obtain ⟨x, rfl, -⟩ := hinside v rest hrun
      simp only [List.length_append]
      omega

/-! ## The decoders -/

theorem receipt_stays_inside_iff {b q : Bytes} {n : Nat} (h : ListEndsAt b q n) :
    StaysInside readReceipt decodeReceipt b n ↔
      ((∃ receipt, decodeReceipt b = .ok receipt) → ∃ x, Items receiptForms.length q x) := by
  obtain ⟨hq, rfl, r, rfl⟩ := h
  apply staysInside_iff fun _ => rfl
  · rintro receipt rest hrun ⟨x, hitems⟩
    obtain ⟨hnormal, n, p, hopens, hp⟩ := readReceipt_eq_ok_iff.mp hrun
    rw [← (ofForm_receipt hnormal).length_eq] at hitems
    obtain ⟨hrest, hcut⟩ := opens_of_items hq hopens hp hitems
    exact ⟨x, hrest, readReceipt_eq_ok_iff.mpr ⟨hnormal, _, p, hcut, hp⟩⟩
  · intro receipt rest x _ hrun
    obtain ⟨hnormal, n, p, hopens, hp⟩ := readReceipt_eq_ok_iff.mp hrun
    rw [← (ofForm_receipt hnormal).length_eq]
    exact ⟨x, items_of_opens hq hopens hp⟩

theorem blockHeader_stays_inside_iff {b q : Bytes} {n : Nat} (h : ListEndsAt b q n) :
    StaysInside readBlockHeader decodeBlockHeader b n ↔
      ((∃ header, decodeBlockHeader b = .ok header) → b.length = n ∨ ∃ x, Items (headerForms.length + 1) q x) := by
  obtain ⟨hq, rfl, r, rfl⟩ := h
  apply staysInside_iff fun _ => rfl
  · intro header rest hrun hC
    obtain ⟨hfee, n, p, hopens, hp⟩ := readBlockHeader_eq_ok_iff.mp hrun
    obtain ⟨x, hitems⟩ : ∃ x, Items header.fields.length q x := by
      rcases hC with hend | ⟨x, hitems⟩
      · obtain rfl : r = [] := by
          rw [List.length_append] at hend
          exact List.length_eq_zero_iff.mp (by omega)
        rw [List.append_nil] at hopens
        exact ⟨rest, items_of_opens hq hopens hp⟩
      · exact hitems.of_le (by rw [(ofForm_blockHeader header).length_eq]; split_ifs <;> simp)
    obtain ⟨rfl, hcut⟩ := opens_of_items hq hopens hp hitems
    -- without a base fee everything was read, the bytes behind the list included
    have hx (hnone : header.baseFeePerGas = none) : x = [] := (List.append_eq_nil_iff.mp (hfee hnone)).1
    exact ⟨x, rfl, readBlockHeader_eq_ok_iff.mpr ⟨hx, _, p, hcut, hp⟩⟩
  · intro header rest x hlong hrun
    obtain ⟨hfee, _, p, hopens, hp⟩ := readBlockHeader_eq_ok_iff.mp hlong
    obtain ⟨-, _, p', hopens', hp'⟩ := readBlockHeader_eq_ok_iff.mp hrun
    have hitems := items_of_opens hq hopens' hp'
    obtain ⟨hrest, -⟩ := opens_of_items hq hopens hp hitems
    rw [(ofForm_blockHeader header).length_eq] at hitems
    by_cases hnone : header.baseFeePerGas = none
    · rw [hfee hnone] at hrest
      rw [(List.append_eq_nil_iff.mp hrest.symm).2, List.append_nil]
      exact .inl rfl
    · rw [if_neg hnone] at hitems
      exact .inr ⟨x, hitems⟩

theorem first_encodeList {q : Bytes} (hq : q.length < kSizeModulus) (r : Bytes) :
    kRlpListPrefixMin ≤ (Bytes.at (encodeList q ++ r) 0).toNat :=
  first_of_opens (n := q.length) (p := q) (r := r) ⟨hq, by simp, by rw [encodeList, List.append_assoc]⟩

theorem typeBytes_of_opens {front c q r p rest : Bytes} {n : Nat} {tx : Transaction}
    (hfront : front = [] ∨ ∃ t : UInt8, front = [t] ∧ t.toNat < kRlpListPrefixMin) (hq : q.length < kSizeModulus)
    (h : front ++ (encodeList q ++ r) = tx.typeBytes ++ c) (hopens : Opens n p rest c) : front = tx.typeBytes := by
  have hlist := first_encodeList hq r
  rcases tx.typeBytes_cases with htype | ⟨t', ht', htype⟩
  · rw [htype] at h ⊢
    rcases hfront with rfl | ⟨t, rfl, ht⟩
    · rfl
    · have hc := first_of_opens hopens
      rw [← List.nil_append c, ← h, List.singleton_append, Bytes.at_cons_zero] at hc
      omega
  · rw [htype] at h ⊢
    rcases hfront with rfl | ⟨t, rfl, ht⟩
    · rw [List.nil_append] at h
      rw [h, List.singleton_append, Bytes.at_cons_zero] at hlist
      omega
    · rw [(List.cons.inj h).1]

theorem transaction_stays_inside_iff {b q : Bytes} {n : Nat} (h : TransactionEndsAt b q n) :
    StaysInside readTransaction decodeTransaction b n ↔
      ((∃ tx, decodeTransaction b = .ok tx) → ∃ x, Items (transactionForms (transactionLayout b).1).length q x) := by
  obtain ⟨front, r, hfront, hq, rfl, rfl⟩ : ∃ front r, (front = [] ∨ ∃ t : UInt8, front = [t] ∧
    t.toNat < kRlpListPrefixMin) ∧
      q.length < kSizeModulus ∧ n = (front ++ encodeList q).length ∧ b = (front ++ encodeList q) ++ r := by
    rcases h with ⟨hq, hn, r, rfl⟩ | ⟨t, c, rfl, ht, ⟨hq, hn, r, rfl⟩, hpos⟩
    · exact ⟨[], r, .inl rfl, hq, hn, rfl⟩
    · exact ⟨[t], r, .inr ⟨t, rfl, ht⟩, hq, by rw [List.length_append, List.length_singleton]; omega, rfl⟩
  have hlist := first_encodeList hq r
  apply staysInside_iff fun _ => rfl
  · rintro tx rest hrun ⟨x, hitems⟩
    obtain ⟨hnormal, n, p, c, hb, hopens, hp⟩ := readTransaction_eq_ok_iff.mp hrun
    rw [List.append_assoc] at hb
    obtain rfl := typeBytes_of_opens hfront hq hb hopens
    obtain rfl := List.append_cancel_left hb
    rw [List.append_assoc, transactionLayout_append hlist, ← (ofForm_transaction tx).length_eq] at hitems
    obtain ⟨hrest, hcut⟩ := opens_of_items hq hopens hp hitems
    exact ⟨x, hrest, readTransaction_eq_ok_iff.mpr ⟨hnormal, _, p, _, rfl, hcut, hp⟩⟩
  · intro tx rest x _ hrun
    obtain ⟨-, n, p, c, hb, hopens, hp⟩ := readTransaction_eq_ok_iff.mp hrun
    rw [← List.append_nil (encodeList q)] at hb
    obtain rfl := typeBytes_of_opens hfront hq hb hopens
    obtain rfl := List.append_cancel_left hb
    rw [List.append_nil] at hopens
    rw [List.append_assoc, transactionLayout_append hlist, ← (ofForm_transaction tx).length_eq]
    exact ⟨x, items_of_opens hq hopens hp⟩

theorem statusCounts_append {q : Bytes} (h : q ≠ []) (r : Bytes) : statusCounts (q ++ r) = statusCounts q := by
  obtain ⟨x, q, rfl⟩ := List.exists_cons_of_ne_nil h
  rfl

theorem statusCounts_head {m : StatusMessage} (hs : m.Supported) {head : Bytes}
    (h : Concat Field.Reads m.headFields head)
    (y : Bytes) : statusCounts (head ++ y) = (m.headFields.length, m.tailFields.length) := by
  cases m with
  | eth68 m =>
      obtain ⟨p, _, hp, -, rfl⟩ := concat_cons.mp h
      rcases hs with hs | hs | hs <;> rw [hs] at hp <;>
        obtain rfl := hp.resolve_right fun h0 => absurd h0.1 (by decide) <;> rfl
  | eth69 m =>
      obtain ⟨p, _, hp, -, rfl⟩ := concat_cons.mp h
      rw [show m.protocolVersion = kEthProtocolVersion69 from hs] at hp
      obtain rfl := hp.resolve_right fun h0 => absurd h0.1 (by decide)
      rfl

theorem StatusRead.behind {m : StatusMessage} {b head fork tail rest : Bytes} {n k : Nat}
    (h : StatusRead b m n head k fork tail rest) :
    Concat Field.Reads (m.forkId.fields ++ m.tailFields) (fork ++ tail) :=
  concat_append.mpr ⟨fork, tail, h.forkRead, h.tailRead, rfl⟩

theorem StatusRead.cut {m : StatusMessage} {n k : Nat} {head fork tail q r rest : Bytes} (hq : q.length < kSizeModulus)
    (h : StatusRead (encodeList q ++ r) m n head k fork tail rest) (hitems : StatusItems q) :
    ∃ x, rest = x ++ r ∧ StatusRead (encodeList q) m q.length head k fork tail x := by
  obtain ⟨k', content, hk', hle', hhead, x, hbehind⟩ := hitems
  have hne : q ≠ [] := by
    rintro rfl
    obtain ⟨items, -, -, hnil⟩ := hhead
    exact headerBytes_ne_nil _ _ (List.append_eq_nil_iff.mp (List.append_eq_nil_iff.mp hnil.symm).2).1
  obtain ⟨-, hstart⟩ := eq_of_opens hq h.opens
  rw [← statusCounts_append hne r, hstart, statusCounts_head h.supported h.headRead] at hhead hbehind
  obtain ⟨hrest, hopens⟩ := opens_of_items hq h.opens h.headRead hhead
  rw [List.append_assoc] at hrest
  obtain ⟨hk, hle, -⟩ := h.forkOpens
  obtain ⟨rfl, hcontent⟩ := headerBytes_append_inj hk hle hk' (by rw [List.length_append]; omega) hrest
  have hcount : 2 + m.tailFields.length = (m.forkId.fields ++ m.tailFields).length := by
    rw [List.length_append]
    rfl
  rw [hcount] at hbehind
  rw [← List.append_assoc] at hcontent
  obtain ⟨rfl, hrest'⟩ := eq_of_items h.behind hbehind hcontent.symm
  rw [List.append_assoc] at hopens hle'
  exact ⟨x, hrest', h.supported, h.headRead, h.forkRead, h.tailRead, hopens, hk, hle', rfl⟩

theorem StatusRead.items {m : StatusMessage} {n k : Nat} {head fork tail q x : Bytes} (hq : q.length < kSizeModulus)
    (h : StatusRead (encodeList q) m n head k fork tail x) : StatusItems q := by
  have hbehind := items_of_concat h.behind x
  rw [List.length_append, List.append_assoc] at hbehind
  have hhead := items_of_opens hq h.opens h.headRead
  have hcounts : statusCounts q = (m.headFields.length, m.tailFields.length) := by
    obtain ⟨-, hstart⟩ := eq_of_opens (r := []) hq (by rw [List.append_nil]; exact h.opens)
    rw [List.append_nil] at hstart
    rw [hstart, statusCounts_head h.supported h.headRead]
  refine ⟨k, _, h.forkOpens.1, h.forkOpens.2.1, ?_, x, ?_⟩
  · rwa [hcounts]
  · rwa [hcounts]

theorem status_stays_inside_iff {b q : Bytes} {n : Nat} (h : ListEndsAt b q n) :
    StaysInside readStatus decodeStatus b n ↔ ((∃ m, decodeStatus b = .ok m) → StatusItems q) := by
  obtain ⟨hq, rfl, r, rfl⟩ := h
  apply staysInside_iff fun _ => rfl
  · intro m rest hrun hitems
    obtain ⟨n, head, k, fork, tail, hstatus⟩ := readStatus_eq_ok_iff.mp hrun
    obtain ⟨x, hrest, hcut⟩ := hstatus.cut hq hitems
    exact ⟨x, hrest, readStatus_eq_ok_iff.mpr ⟨_, _, _, _, _, hcut⟩⟩
  · intro m rest x _ hrun
    obtain ⟨n, head, k, fork, tail, hstatus⟩ := readStatus_eq_ok_iff.mp hrun
    exact hstatus.items hq

/-- **When the decoders stay inside the list they opened.** Whatever is decoded is decoded from the list alone, and
nothing behind the list is consumed, exactly if the list has an item for each field: those of the type of a transaction,
four for a receipt, sixteen for a block header unless the list is all there is, and those of the version of a status
message. -/
theorem decoders_stay_inside_iff (b q : Bytes) (n : Nat) :
    (TransactionEndsAt b q n → (StaysInside readTransaction decodeTransaction b n ↔
      ((∃ tx, decodeTransaction b = .ok tx) → ∃ x, Items (transactionForms (transactionLayout b).1).length q x))) ∧
    (ListEndsAt b q n → (StaysInside readReceipt decodeReceipt b n ↔
      ((∃ receipt, decodeReceipt b = .ok receipt) → ∃ x, Items receiptForms.length q x))) ∧
    (ListEndsAt b q n → (StaysInside readBlockHeader decodeBlockHeader b n ↔
      ((∃ header, decodeBlockHeader b = .ok header) → b.length = n ∨ ∃ x, Items (headerForms.length + 1) q x))) ∧
    (ListEndsAt b q n → (StaysInside readStatus decodeStatus b n ↔ ((∃ m, decodeStatus b = .ok m) → StatusItems q))) :=
  ⟨transaction_stays_inside_iff, receipt_stays_inside_iff, blockHeader_stays_inside_iff, status_stays_inside_iff⟩

def emptyStrings : Bytes := List.replicate 9 0x80

def emptyTransaction : Transaction := ⟨.kLegacy, 0, 0, none, 0, [], some 0, none, none, [], none, 0, 0, 0⟩

theorem decoders_stay_inside_iff_emptyStrings :
    decodeTransaction (encodeList emptyStrings ++ [0x80]) = .ok emptyTransaction ∧
      StaysInside readTransaction decodeTransaction (encodeList emptyStrings ++ [0x80]) 10 := by
  have hdecode : decodeTransaction (encodeList emptyStrings ++ [0x80]) = .ok emptyTransaction := by decide +kernel
  have hitem : IsItem [0x80] := isItem_encodeString (s := []) (by decide)
  refine ⟨hdecode, ((decoders_stay_inside_iff _ emptyStrings 10).1
    (.inl ⟨by decide, by decide, List.prefix_append _ _⟩)).mpr ?_⟩
  exact fun _ => ⟨[], List.replicate 9 [0x80], rfl, fun item h => by rwa [List.eq_of_mem_replicate h], rfl⟩

/-- The fields of a transaction are read from behind a list that holds none. -/
theorem transaction_is_read_behind_its_list : ListEndsAt (0xC0 :: emptyStrings) [] 1 ∧
    decodeTransaction (0xC0 :: emptyStrings) = .ok emptyTransaction ∧
      decodeTransaction ((0xC0 :: emptyStrings).take 1) = .error .kUnexpectedString :=
  ⟨⟨by decide, by decide, emptyStrings, rfl⟩, by decide +kernel, by decide⟩

end DevP2P.Eth
