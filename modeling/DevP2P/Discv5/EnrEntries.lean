import DevP2P.Lib.LastWrite
import DevP2P.Discv5.Enr

/-!
# The entries of a node record

The key/value loop of `decode_rlp` reads pairs of strings to the end of the input or to the first one
it cannot read; every pair it reads sets at most one field of the record, the last one wins.

* `entriesOf v` : the pairs the loop reads from `v`, `unread v` : where it stops;
  `entriesOf_append` : bytes appended to `v` are read from there on;
* `Update`, `updateOf` : what one pair sets; `Slot` : where; `EnrRecord.value` : what a slot holds;
* `entryLoop_eq` : the loop makes the updates of the entries, in order;
* `value_update` : the record is a store, so that a slot holds the last update made to it.
-/

namespace DevP2P.Discv5
open DevP2P.Lib DevP2P.Rlp

/-! ## Reading pairs -/

/-- One key and one value in front of `v`, and what follows them. -/
def readPair (v : ByteView) : Option ((Bytes × Bytes) × ByteView) :=
  match readBytes ⟨v⟩ with
  | .error _ _ => none
  | .ok key d => match readBytes d with
    | .error _ _ => none
    | .ok val d => some ((key, val), d.view)

def pairsFrom : Nat → ByteView → List (Bytes × Bytes)
  | 0, _ => []
  | fuel + 1, v => match readPair v with
    | none => []
    | some (e, r) => e :: pairsFrom fuel r

/-- The pairs the loop reads from `v`. -/
def entriesOf (v : ByteView) : List (Bytes × Bytes) := pairsFrom v.length v

def encodePair (e : Bytes × Bytes) : Bytes := encodeString e.1 ++ encodeString e.2

/-- Where the loop stops in `v`: the end, or the first pair it cannot read. -/
def unread (v : ByteView) : ByteView := v.drop ((entriesOf v).flatMap encodePair).length

def HasSize (e : Bytes × Bytes) : Prop := e.1.length < kSizeModulus ∧ e.2.length < kSizeModulus

theorem readPair_eq_some_iff {v r : ByteView} {e : Bytes × Bytes} :
    readPair v = some (e, r) ↔ HasSize e ∧ v = encodePair e ++ r := by
  unfold readPair encodePair HasSize
  constructor
  · intro h
    cases h1 : readBytes ⟨v⟩ with
    | error err d => simp [h1] at h
    | ok key d =>
        cases h2 : readBytes d with
        | error err d2 => simp [h1, h2] at h
        | ok val d2 =>
            simp only [h1, h2, Option.some.injEq, Prod.mk.injEq] at h
            obtain ⟨rfl, rfl⟩ := h
            obtain ⟨hk, hv⟩ := readBytes_eq_ok_iff.mp h1
            obtain ⟨hx, hd⟩ := readBytes_eq_ok_iff.mp h2
            exact ⟨⟨hk, hx⟩, by rw [hv, hd, List.append_assoc]⟩
  · intro h
    obtain ⟨⟨hk, hx⟩, rfl⟩ := h
    have h1 : readBytes ⟨encodeString e.1 ++ (encodeString e.2 ++ r)⟩ = .ok e.1 ⟨encodeString e.2 ++ r⟩ :=
      readBytes_eq_ok_iff.mpr ⟨hk, rfl⟩
    have h2 : readBytes ⟨encodeString e.2 ++ r⟩ = .ok e.2 ⟨r⟩ := readBytes_eq_ok_iff.mpr ⟨hx, rfl⟩
    rw [List.append_assoc, h1]
    simp only [h2]

theorem length_lt_of_readPair {v r : ByteView} {e : Bytes × Bytes} (h : readPair v = some (e, r)) :
    r.length < v.length := by
  obtain ⟨-, rfl⟩ := readPair_eq_some_iff.mp h
  have := length_encodeString_pos e.1
  simp only [encodePair, List.length_append]
  omega

theorem pairsFrom_of_le {fuel : Nat} {v : ByteView} (h : v.length ≤ fuel) :
    pairsFrom fuel v = entriesOf v := by
  unfold entriesOf
  induction fuel using Nat.strong_induction_on generalizing v with
  | _ fuel ih =>
      rcases fuel with _ | fuel
      · rw [Nat.le_zero.mp h]
      · rcases hv : v.length with _ | n
        · obtain rfl := List.length_eq_zero_iff.mp hv
          rfl
        · simp only [pairsFrom]
          cases hr : readPair v with
          | none => rfl
          | some er =>
              obtain ⟨e, r⟩ := er
              have hlt := length_lt_of_readPair hr
              simp only
              rw [ih fuel (by omega) (by omega), ih n (by omega) (by omega)]

theorem entriesOf_of_none {v : ByteView} (h : readPair v = none) : entriesOf v = [] := by
  unfold entriesOf
  cases v.length with
  | zero => rfl
  | succ n => simp [pairsFrom, h]

theorem entriesOf_of_some {v r : ByteView} {e : Bytes × Bytes} (h : readPair v = some (e, r)) :
    entriesOf v = e :: entriesOf r := by
  have hlt := length_lt_of_readPair h
  obtain ⟨n, hn⟩ := Nat.exists_eq_succ_of_ne_zero (show v.length ≠ 0 by omega)
  unfold entriesOf
  rw [hn, pairsFrom, h]
  simp only
  rw [pairsFrom_of_le (by omega)]
  rfl

theorem entriesOf_spec (v : ByteView) :
    (∀ e ∈ entriesOf v, HasSize e) ∧ (entriesOf v).flatMap encodePair ++ unread v = v := by
  suffices h : (∀ e ∈ entriesOf v, HasSize e) ∧ ∃ u, v = (entriesOf v).flatMap encodePair ++ u by
    obtain ⟨hsize, u, hu⟩ := h
    have hdrop := congrArg (List.drop ((entriesOf v).flatMap encodePair).length) hu
    rw [List.drop_left] at hdrop
    exact ⟨hsize, by rw [unread, hdrop, ← hu]⟩
  induction hn : v.length using Nat.strong_induction_on generalizing v with
  | _ n ih =>
      cases hr : readPair v with
      | none =>
          rw [entriesOf_of_none hr]
          exact ⟨nofun, v, rfl⟩
      | some er =>
          obtain ⟨e, r⟩ := er
          have hlt := length_lt_of_readPair hr
          obtain ⟨he, hv⟩ := readPair_eq_some_iff.mp hr
          obtain ⟨hsize, u, hu⟩ := ih r.length (by omega) r rfl
          rw [entriesOf_of_some hr]
          refine ⟨?_, u, ?_⟩
          · intro e' he'
            rcases List.mem_cons.mp he' with rfl | he'
            · exact he
            · exact hsize e' he'
          · rw [List.flatMap_cons, List.append_assoc, ← hu, hv]

theorem entriesOf_flatMap_append {es : List (Bytes × Bytes)} (h : ∀ e ∈ es, HasSize e) (w : ByteView) :
    entriesOf (es.flatMap encodePair ++ w) = es ++ entriesOf w := by
  induction es with
  | nil => rfl
  | cons e es ih =>
      have he : readPair ((e :: es).flatMap encodePair ++ w) = some (e, es.flatMap encodePair ++ w) := by
        apply readPair_eq_some_iff.mpr
        exact ⟨h e (List.mem_cons_self ..), by rw [List.flatMap_cons, List.append_assoc]⟩
      rw [entriesOf_of_some he, ih (fun e' he' => h e' (List.mem_cons_of_mem e he')), List.cons_append]

/-- **Appended bytes are read from where the loop stopped.** -/
theorem entriesOf_append (v t : ByteView) :
    entriesOf (v ++ t) = entriesOf v ++ entriesOf (unread v ++ t) := by
  obtain ⟨hsize, hv⟩ := entriesOf_spec v
  conv_lhs => rw [← hv, List.append_assoc]
  exact entriesOf_flatMap_append hsize _

/-! ## Updates -/

/-- A field of the record that an entry can set. -/
inductive Slot
  | id
  | pubkey
  | ip
  | ip6
  | tcp
  | udp
  | tcp6
  | udp6
  | eth
  | extra (key : Bytes)
deriving DecidableEq

/-- A field and the value it is set to. -/
inductive Update
  | id (scheme : Bytes)
  | pubkey (key : FixedBytes kCompressedKeyBytes)
  | ip (text : Bytes)
  | ip6 (text : Bytes)
  | tcp (port : UInt16)
  | udp (port : UInt16)
  | tcp6 (port : UInt16)
  | udp6 (port : UInt16)
  | eth (forkId : ForkId)
  | extra (key val : Bytes)
deriving DecidableEq

def Slot.key : Slot → Bytes
  | .id => kEnrKeyId
  | .pubkey => kEnrKeySecp256k1
  | .ip => kEnrKeyIp
  | .ip6 => kEnrKeyIp6
  | .tcp => kEnrKeyTcp
  | .udp => kEnrKeyUdp
  | .tcp6 => kEnrKeyTcp6
  | .udp6 => kEnrKeyUdp6
  | .eth => kEnrKeyEth
  | .extra key => key

def Slot.ofKey (key : Bytes) : Slot :=
  if key = kEnrKeyId then .id
  else if key = kEnrKeySecp256k1 then .pubkey
  else if key = kEnrKeyIp then .ip
  else if key = kEnrKeyIp6 then .ip6
  else if key = kEnrKeyTcp then .tcp
  else if key = kEnrKeyUdp then .udp
  else if key = kEnrKeyTcp6 then .tcp6
  else if key = kEnrKeyUdp6 then .udp6
  else if key = kEnrKeyEth then .eth
  else .extra key

theorem Slot.key_ofKey (key : Bytes) : (Slot.ofKey key).key = key := by
  have hite {P : Prop} [Decidable P] {s t : Slot} (hs : P → s.key = key) (ht : t.key = key) :
      (if P then s else t).key = key := by
    by_cases h : P
    · rw [if_pos h, hs h]
    · rw [if_neg h, ht]
  unfold ofKey
  iterate 9 refine hite Eq.symm ?_
  rfl

def Update.slot : Update → Slot
  | .id _ => .id
  | .pubkey _ => .pubkey
  | .ip _ => .ip
  | .ip6 _ => .ip6
  | .tcp _ => .tcp
  | .udp _ => .udp
  | .tcp6 _ => .tcp6
  | .udp6 _ => .udp6
  | .eth _ => .eth
  | .extra key _ => .extra key

namespace EnrRecord

def update (r : EnrRecord) : Update → EnrRecord
  | .id scheme => { r with identityScheme := scheme }
  | .pubkey key => { r with compressedPubkey := key }
  | .ip text => { r with ip := text }
  | .ip6 text => { r with ip6 := text }
  | .tcp port => { r with tcpPort := port }
  | .udp port => { r with udpPort := port }
  | .tcp6 port => { r with tcp6Port := port }
  | .udp6 port => { r with udp6Port := port }
  | .eth forkId => { r with ethForkId := some forkId }
  | .extra key val =>
    { r with
      extraFields := r.extraFields.insert key val
      sigBuffer := if key = kSigKey then assignInto r.sigBuffer val else r.sigBuffer }

/-- What a field holds, as the update that would set it. -/
def value (r : EnrRecord) : Slot → Option Update
  | .id => some (.id r.identityScheme)
  | .pubkey => some (.pubkey r.compressedPubkey)
  | .ip => some (.ip r.ip)
  | .ip6 => some (.ip6 r.ip6)
  | .tcp => some (.tcp r.tcpPort)
  | .udp => some (.udp r.udpPort)
  | .tcp6 => some (.tcp6 r.tcp6Port)
  | .udp6 => some (.udp6 r.udp6Port)
  | .eth => r.ethForkId.map .eth
  | .extra key => (r.extraFields.lookup key).map (.extra key)

theorem value_update : IsStore Update.slot value update := by
  intro r u s
  cases u with
  | extra key val =>
      cases s with
      | extra key' =>
          by_cases h : key = key'
          · subst h
            simp [value, update, Update.slot, Finmap.lookup_insert]
          · simp [value, update, Update.slot, h, Finmap.lookup_insert_of_ne _ (Ne.symm h)]
      | _ => rfl
  | _ => cases s <;> rfl

end EnrRecord

namespace EnrParser

variable (env : EnrPrimitives)

/-- The update an entry makes, if its value is acceptable. -/
def updateOf (key val : Bytes) : Option Update :=
  if key = kEnrKeyId then some (.id val)
  else if key = kEnrKeySecp256k1 then
    if val.length = kCompressedKeyBytes then some (.pubkey (FixedBytes.load _ val)) else none
  else if key = kEnrKeyIp then (decodeIpv4 env val).toOption.map .ip
  else if key = kEnrKeyIp6 then (decodeIpv6 env val).toOption.map .ip6
  else if key = kEnrKeyTcp then (decodePort val).toOption.map .tcp
  else if key = kEnrKeyUdp then (decodePort val).toOption.map .udp
  else if key = kEnrKeyTcp6 then (decodePort val).toOption.map .tcp6
  else if key = kEnrKeyUdp6 then (decodePort val).toOption.map .udp6
  else if key = kEnrKeyEth then (decodeEthEntry val).toOption.map .eth
  else some (.extra key val)

def updatesOf (es : List (Bytes × Bytes)) : List Update := es.filterMap fun e => updateOf env e.1 e.2

theorem updatesOf_append (es es' : List (Bytes × Bytes)) :
    updatesOf env (es ++ es') = updatesOf env es ++ updatesOf env es' :=
  List.filterMap_append

theorem mem_updatesOf {es : List (Bytes × Bytes)} {u : Update} :
    u ∈ updatesOf env es ↔ ∃ e ∈ es, updateOf env e.1 e.2 = some u :=
  List.mem_filterMap

theorem slot_ite {P : Prop} [Decidable P] {s t : Slot} {u v : Option Update} (hu : ∀ w ∈ u, w.slot = s)
    (hv : ∀ w ∈ v, w.slot = t) : ∀ w ∈ if P then u else v, w.slot = if P then s else t := by
  by_cases h : P
  · rwa [if_pos h, if_pos h]
  · rwa [if_neg h, if_neg h]

theorem slot_map {α : Type} {s : Slot} {f : α → Update} (hf : ∀ a, (f a).slot = s) (o : Option α) :
    ∀ w ∈ o.map f, w.slot = s := by
  intro w hw
  obtain ⟨a, -, rfl⟩ := Option.mem_map.mp hw
  exact hf a

theorem slot_of_updateOf {key val : Bytes} {u : Update} (h : updateOf env key val = some u) :
    u.slot = Slot.ofKey key := by
  have hall : ∀ w ∈ updateOf env key val, w.slot = Slot.ofKey key := by
    unfold updateOf Slot.ofKey
    refine slot_ite (slot_map (f := .id) (fun _ => rfl) (some val)) (slot_ite ?_ ?_)
    · by_cases hsize : val.length = kCompressedKeyBytes
      · rw [if_pos hsize]
        exact slot_map (f := .pubkey) (fun _ => rfl) (some _)
      · rw [if_neg hsize]
        exact nofun
    iterate 7 refine slot_ite (slot_map (by exact fun _ => rfl) _) ?_
    exact slot_map (f := .extra key) (fun _ => rfl) (some val)
  exact hall u h

theorem key_of_updateOf {key val : Bytes} {u : Update} (h : updateOf env key val = some u) : u.slot.key = key := by
  rw [slot_of_updateOf env h, Slot.key_ofKey]

theorem ite_eq_update {P : Prop} [Decidable P] {r x y : EnrRecord} {u v : Option Update}
    (hx : x = (u.map r.update).getD r) (hy : y = (v.map r.update).getD r) :
    (if P then x else y) = ((if P then u else v).map r.update).getD r := by
  by_cases h : P
  · rw [if_pos h, if_pos h, hx]
  · rw [if_neg h, if_neg h, hy]

theorem applyEntry_eq (r : EnrRecord) (key val : Bytes) :
    applyEntry env r key val = ((updateOf env key val).map r.update).getD r := by
  unfold applyEntry updateOf
  -- one step for each key, in the order in which the keys are compared
  refine ite_eq_update rfl ?_
  refine ite_eq_update (ite_eq_update rfl rfl) ?_
  refine ite_eq_update (by cases decodeIpv4 env val <;> rfl) ?_
  refine ite_eq_update (by cases decodeIpv6 env val <;> rfl) ?_
  refine ite_eq_update (by cases decodePort val <;> rfl) ?_
  refine ite_eq_update (by cases decodePort val <;> rfl) ?_
  refine ite_eq_update (by cases decodePort val <;> rfl) ?_
  refine ite_eq_update (by cases decodePort val <;> rfl) ?_
  refine ite_eq_update (by cases decodeEthEntry val <;> rfl) ?_
  rfl

theorem entryLoop_eq_foldl (fuel : Nat) (r : EnrRecord) (v : ByteView) :
    entryLoop env fuel r ⟨v⟩ = (updatesOf env (pairsFrom fuel v)).foldl EnrRecord.update r := by
  induction fuel generalizing r v with
  | zero => rfl
  | succ fuel ih =>
      have hnil : readBytes ⟨[]⟩ = .error .kInputTooShort ⟨[]⟩ := rfl
      rw [entryLoop, pairsFrom, readPair]
      split_ifs with hfin
      · obtain rfl := List.isEmpty_iff.mp hfin
        rw [hnil]
        rfl
      · cases h1 : readBytes ⟨v⟩ with
        | error e d => rfl
        | ok key d =>
            simp only
            cases h2 : readBytes d with
            | error e d => rfl
            | ok val d =>
                simp only
                rw [ih, applyEntry_eq, updatesOf, updatesOf, List.filterMap_cons]
                cases updateOf env key val <;> rfl

/-- **The loop makes the updates of the entries, in order.** -/
theorem entryLoop_eq (r : EnrRecord) (v : ByteView) :
    entryLoop env v.length r ⟨v⟩ = (updatesOf env (entriesOf v)).foldl EnrRecord.update r :=
  entryLoop_eq_foldl env v.length r v

/-- A key that `decode_rlp` does not know is stored in `extra_fields`. -/
def IsExtraKey (key : Bytes) : Prop := ∀ val, updateOf env key val = some (.extra key val)

theorem lastWrite_extra {key : Bytes} (hkey : IsExtraKey env key) (es : List (Bytes × Bytes)) :
    lastWrite Update.slot (.extra key) (updatesOf env es)
      = (lastWrite Prod.fst key es).map fun e => .extra key e.2 := by
  induction es with
  | nil => rfl
  | cons e es ih =>
      rw [lastWrite_cons, updatesOf, List.filterMap_cons]
      by_cases hk : e.1 = key
      · rw [hk, hkey e.2, if_pos rfl]
        simp only
        rw [lastWrite_cons, ← updatesOf, ih, if_pos (show (Update.extra key e.2).slot = .extra key from rfl)]
        cases lastWrite Prod.fst key es <;> rfl
      · rw [if_neg hk, Option.or_none, ← ih]
        cases hu : updateOf env e.1 e.2 with
        | none => rfl
        | some u =>
            simp only
            rw [lastWrite_cons, if_neg, Option.or_none]
            · rfl
            · intro hs
              have hkey' := key_of_updateOf env hu
              rw [hs] at hkey'
              exact hk hkey'.symm

theorem isExtraKey_sig : IsExtraKey env kSigKey := fun _ => rfl

theorem isExtraKey_content : IsExtraKey env kContentKey := fun _ => rfl

end EnrParser

end DevP2P.Discv5
