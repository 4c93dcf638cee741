import DevP2P.Discv4.Authentic

/-!
# The nodes of a NEIGHBOURS packet

The loop over the nodes ends at the first one that it cannot read, and a node with an address of sixteen bytes is one.

* `WireNode`, `NeighboursPayload` : a NEIGHBOURS packet with nodes of both address families;
* `readNode_encoding`, `readNode_of_long_ip` : what the read of one node does;
* `neighboursLoop_encoding` : the loop records the nodes in front of the first one with a long address;
* `lookup_recordNodes` : under each id stands the last of the recorded nodes;
* `neighbours_recorded_iff` : when every usable node is recorded.
-/

namespace DevP2P.Discv4
open DevP2P.Lib DevP2P.Rlp Stateful

/-! ## Packets -/

def kIPv6Size : Nat := 16

/-- A node as a NEIGHBOURS packet carries it, with any items behind its four fields. -/
structure WireNode extends NodeEntry where
  extra : List Bytes
  ip_size : ip.length = kIPv4Size ∨ ip.length = kIPv6Size
  extra_items : ∀ item ∈ extra, IsItem item

namespace WireNode

variable (n : WireNode)

def fields : Bytes :=
  encodeFields [.string n.ip, .number .uint16 n.udpPort, .number .uint16 n.tcpPort, .string n.nodeId.bytes]

def encoding : Bytes := encodeList (n.fields ++ n.extra.flatten)

def isV4 : Bool := n.ip.length = kIPv4Size

end WireNode

/-- The payload of a NEIGHBOURS packet: the nodes, the expiration and whatever follows. -/
structure NeighboursPayload where
  nodes : List WireNode
  rest : List Bytes
  rest_items : ∀ item ∈ rest, IsItem item

def NeighboursPayload.encoding (payload : NeighboursPayload) : Bytes :=
  encodeList (encodeList (payload.nodes.flatMap WireNode.encoding) ++ payload.rest.flatten)

/-! ## One node -/

theorem skipItems_flatten {items : List Bytes} (h : ∀ item ∈ items, IsItem item) {fuel : Nat}
    (hfuel : items.length ≤ fuel) :
    skipItems fuel items.flatten = [] := by
  induction items generalizing fuel with
  | nil => cases fuel <;> rfl
  | cons item items ih =>
      obtain ⟨fuel, rfl⟩ : ∃ k, fuel = k + 1 := ⟨fuel - 1, by rw [List.length_cons] at hfuel; omega⟩
      have hitem := h item List.mem_cons_self
      rw [List.flatten_cons, skipItems, if_neg (by simp [hitem.ne_nil]), skipItem_eq_ok_iff.mpr ⟨item, hitem, rfl⟩]
      exact ih (fun x hx => h x (List.mem_cons_of_mem item hx)) (by simpa using hfuel)

theorem length_le_length_flatten {items : List Bytes} (h : ∀ item ∈ items, item ≠ []) :
    items.length ≤ items.flatten.length := by
  induction items with
  | nil => exact Nat.le_refl 0
  | cons item items ih =>
      have hitem := List.length_pos_iff.mpr (h item List.mem_cons_self)
      have := ih fun x hx => h x (List.mem_cons_of_mem item hx)
      rw [List.flatten_cons, List.length_append, List.length_cons]
      omega

namespace WireNode

variable {n : WireNode}

theorem nodeId_size : n.nodeId.bytes.length = kNodeIdSize := n.nodeId.size_eq

theorem fields_eq : n.fields = encodeString n.ip ++ (encodeString (beBytes n.udpPort.toNat) ++
    (encodeString (beBytes n.tcpPort.toNat) ++ encodeString n.nodeId.bytes)) := by
  unfold fields
  rw [encodeFields_cons, encodeFields_cons, encodeFields_cons, encodeFields_singleton]
  rfl

theorem ip_lt : n.ip.length < kSizeModulus := by
  rcases n.ip_size with h | h <;> rw [h] <;> decide

end WireNode

section

variable {n : WireNode} (hsize : (n.fields ++ n.extra.flatten).length < kSizeModulus) (r : Bytes)
include hsize

theorem readNode_encoding (hip : n.ip.length = kIPv4Size) : readNode ⟨n.encoding ++ r⟩ = .ok n.toNodeEntry ⟨r⟩ := by
  have hport (T : UIntTy) (port : T.Val) (rest : Bytes) :
      readUInt T ⟨encodeString (beBytes port.toNat) ++ rest⟩ = .ok port ⟨rest⟩ := (Parses.uint T).run (.inl rfl) rest
  have hid : n.nodeId.bytes.length < kSizeModulus := by rw [n.nodeId.size_eq]; decide
  unfold readNode WireNode.encoding
  rw [bind_of_ok (readListHeaderBytes_encodeList_append hsize r), get_bind, List.length_append, List.length_append]
  generalize List.length n.fields = k
  rw [WireNode.fields_eq]
  simp only [List.append_assoc]
  rw [bind_of_ok (Parses.bytes.run ⟨WireNode.ip_lt, rfl⟩ _), rejectIf_bind_of_not (not_not.mpr hip),
    bind_of_ok (hport _ _ _), bind_of_ok (hport _ _ _), bind_of_ok (Parses.bytes.run ⟨hid, rfl⟩ _),
    rejectIf_bind_of_not (not_not.mpr WireNode.nodeId_size), get_bind]
  have hconsumed : k + n.extra.flatten.length + r.length - (n.extra.flatten ++ r).length = k := by
    rw [List.length_append]
    omega
  have hentry : NodeEntry.mk n.ip n.udpPort n.tcpPort (.load _ n.nodeId.bytes) = n.toNodeEntry := by
    rw [FixedBytes.load_bytes]
  simp only [hconsumed, Nat.add_sub_cancel_left, List.take_left, hentry]
  have hfuel : n.extra.length ≤ n.extra.flatten.length :=
    length_le_length_flatten fun item hitem => (n.extra_items item hitem).ne_nil
  split_ifs with hmore
  · rw [skipItems_flatten n.extra_items hfuel, set_bind, List.length_nil, Nat.sub_zero,
      List.drop_left]
    rfl
  · have hnone : n.extra.flatten = [] := List.length_eq_zero_iff.mp (by omega)
    rw [hnone]
    rfl

theorem readNode_of_long_ip (hip : n.ip.length ≠ kIPv4Size) : ∃ e d, readNode ⟨n.encoding ++ r⟩ = .error e d := by
  unfold readNode WireNode.encoding
  rw [bind_of_ok (readListHeaderBytes_encodeList_append hsize r), get_bind, WireNode.fields_eq]
  simp only [List.append_assoc]
  rw [bind_of_ok (Parses.bytes.run ⟨WireNode.ip_lt, rfl⟩ _), rejectIf_bind_of hip]
  exact ⟨_, _, rfl⟩

end

/-! ## The loop -/

/-- The nodes are recorded one after the other, the first of them with the clock reading `i`. -/
def recordNodes (input : HandlerInput) : Nat → List WireNode → Discv4Client → Discv4Client
  | _, [], c => c
  | i, n :: nodes, c => recordNodes input (i + 1) nodes (recordNode (input.steadyTime i) n.toNodeEntry c)

def beforeLong (nodes : List WireNode) : List WireNode := nodes.takeWhile WireNode.isV4

def fromLong (nodes : List WireNode) : List WireNode := nodes.dropWhile WireNode.isV4

theorem beforeLong_append_fromLong (nodes : List WireNode) : beforeLong nodes ++ fromLong nodes = nodes :=
  List.takeWhile_append_dropWhile

theorem neighboursLoop_encoding (input : HandlerInput) {nodes : List WireNode}
    (hsize : (nodes.flatMap WireNode.encoding).length < kSizeModulus) (r : Bytes) {start : Nat}
    (hstart : (nodes.flatMap WireNode.encoding).length + r.length ≤ start) {fuel : Nat}
    (hfuel : nodes.length ≤ fuel) (i : Nat)
    (c : Discv4Client) :
    neighboursLoop input start (start - r.length) fuel i ⟨nodes.flatMap WireNode.encoding ++ r⟩ c =
      recordNodes input i (beforeLong nodes) c := by
  induction nodes generalizing fuel i c with
  | nil =>
      cases fuel with
      | zero => rfl
      | succ fuel =>
          rw [neighboursLoop, if_pos (.inr (by simp))]
          rfl
  | cons n nodes ih =>
      obtain ⟨fuel, rfl⟩ : ∃ k, fuel = k + 1 := ⟨fuel - 1, by rw [List.length_cons] at hfuel; omega⟩
      rw [List.flatMap_cons, List.length_append] at hsize hstart
      have hne : n.encoding ≠ [] := encodeList_ne_nil _
      have hpos := List.length_pos_iff.mpr hne
      have hn : (n.fields ++ n.extra.flatten).length < kSizeModulus :=
        lt_of_le_of_lt (length_le_encodeList _) (lt_of_le_of_lt (Nat.le_add_right _ _) hsize)
      have hgo : ¬ ((RlpDecoder.mk (n.encoding ++ (nodes.flatMap WireNode.encoding ++ r))).isFinished = true ∨
          start - r.length ≤ start - (n.encoding ++ (nodes.flatMap WireNode.encoding ++ r)).length) := by
        simp only [RlpDecoder.isFinished, List.isEmpty_iff, List.append_eq_nil_iff, hne, false_and, false_or,
          List.length_append]
        omega
      rw [List.flatMap_cons, List.append_assoc, neighboursLoop, if_neg hgo]
      by_cases hip : n.ip.length = kIPv4Size
      · rw [readNode_encoding hn _ hip, beforeLong, List.takeWhile_cons_of_pos (by simpa [WireNode.isV4] using hip)]
        exact ih (by omega) (by omega) (by simpa using hfuel) _ _
      · obtain ⟨e, d, herror⟩ := readNode_of_long_ip hn (nodes.flatMap WireNode.encoding ++ r) hip
        rw [herror, beforeLong, List.takeWhile_cons_of_neg (by simpa [WireNode.isV4] using hip)]
        rfl

/-- A solicited packet: the timer of the request is cancelled, and the nodes in front of the first one with a long
address are recorded. -/
theorem handleNeighbours_payload (env : Discv4Primitives) (input : HandlerInput) (sender : Endpoint) (c : Discv4Client)
    {entry : PendingReply} (hentry : pendingReply env sender kPacketTypeNeighbours c = some entry)
    (header : FixedBytes kWireHeaderSize)
    (payload : NeighboursPayload) (hsize : payload.encoding.length < kSizeModulus) :
    handleNeighbours env input (header.bytes ++ payload.encoding) sender c =
      .ok () (recordNodes input 0 (beforeLong payload.nodes) { c with cancelled := c.cancelled ++ [entry.timer] }) := by
  have houter : (encodeList (payload.nodes.flatMap WireNode.encoding) ++ payload.rest.flatten).length < kSizeModulus :=
    lt_of_le_of_lt (length_le_encodeList _) hsize
  have hinner : (payload.nodes.flatMap WireNode.encoding).length < kSizeModulus := by
    rw [List.length_append] at houter
    exact lt_of_le_of_lt (length_le_encodeList _) (by omega)
  have hnodes : readNodes ⟨payload.encoding⟩ = .ok (payload.nodes.flatMap WireNode.encoding).length
      ⟨payload.nodes.flatMap WireNode.encoding ++ payload.rest.flatten⟩ := by
    unfold readNodes NeighboursPayload.encoding
    rw [bind_of_ok (readListHeaderBytes_encodeList houter)]
    exact readListHeaderBytes_encodeList_append hinner _
  unfold handleNeighbours
  rw [rejectIf_bind_of_not (by simp), get_bind, hentry, Outcome.unwrap_some,
    bind_of_ok (orReturn_ok entry c)]
  unfold cancel
  rw [bind_of_ok (modify_apply _ c), List.drop_left' header.size_eq, hnodes]
  have hcount : payload.nodes.length ≤ (payload.nodes.flatMap WireNode.encoding).length := by
    rw [List.flatMap_def, ← List.length_map WireNode.encoding]
    exact length_le_length_flatten (List.forall_mem_map.mpr fun n _ => encodeList_ne_nil _)
  have hloop := neighboursLoop_encoding input hinner payload.rest.flatten (le_of_eq List.length_append.symm)
    (hcount.trans (List.sublist_append_left _ payload.rest.flatten).length_le) 0 { c with
      cancelled := c.cancelled ++ [entry.timer] }
  rw [List.length_append, Nat.add_sub_cancel] at hloop
  dsimp only
  rw [modify_apply, List.length_append, hloop]

/-! ## The table of peers -/

def NodeEntry.peer (n : NodeEntry) (lastSeen : Nat) : DiscoveredPeer :=
  ⟨n.nodeId, ipText n.ip, n.udpPort, n.tcpPort, lastSeen⟩

theorem NodeEntry.peer_eq {m n : NodeEntry} {t u : Nat} (h : m.peer t = n.peer u) (v : Nat) : m.peer v = n.peer v := by
  obtain ⟨hid, hip, hudp, htcp, -⟩ := DiscoveredPeer.mk.inj h
  unfold NodeEntry.peer
  rw [hid, hip, hudp, htcp]

theorem peers_recordNode (lastSeen : Nat) (n : NodeEntry) (c : Discv4Client) :
    (recordNode lastSeen n c).peers = if n.tcpPort = 0 then c.peers else c.peers.insert (nodeKey n.nodeId)
    (n.peer lastSeen) := by
  unfold recordNode
  dsimp only
  split_ifs <;> rfl

theorem hexByte_inj {a b : UInt8} (h : hexByte a = hexByte b) : a = b := by
  have hdigit : ∀ x < 16, ∀ y < 16, UInt8.ofNat (if x < 10 then 0x30 + x else 0x61 + (x - 10)) =
      UInt8.ofNat (if y < 10 then 0x30 + y else 0x61 + (y - 10)) → x = y := by decide
  have ha := a.toNat_lt
  have hb := b.toNat_lt
  obtain ⟨hhigh, hrest⟩ := List.cons.inj (h : _ :: _ = _ :: _)
  obtain ⟨hlow, -⟩ := List.cons.inj (hrest : _ :: _ = _ :: _)
  have := hdigit (a.toNat / 16) (by omega) (b.toNat / 16) (by omega) hhigh
  have := hdigit (a.toNat % 16) (by omega) (b.toNat % 16) (by omega) hlow
  exact uint8_eq_of_toNat (by omega)

theorem flatMap_hexByte_inj {a b : Bytes} (h : a.flatMap hexByte = b.flatMap hexByte) : a = b := by
  induction a generalizing b with
  | nil =>
      cases b with
      | nil => rfl
      | cons y b => exact absurd h nofun
  | cons x a ih =>
      cases b with
      | nil => exact absurd h nofun
      | cons y b =>
          rw [List.flatMap_cons, List.flatMap_cons] at h
          obtain ⟨hxy, hab⟩ := List.append_inj h rfl
          rw [hexByte_inj hxy, ih hab]

theorem nodeKey_inj {a b : NodeId} (h : nodeKey a = nodeKey b) : a = b := FixedBytes.ext (flatMap_hexByte_inj h)

/-- The node has the id `id`, an address of four bytes and a port for connections. -/
def WireNode.isUsable (id : NodeId) (n : WireNode) : Bool := n.nodeId = id ∧ n.isV4 ∧ n.tcpPort ≠ 0

/-- The last usable node with the id `id`. -/
def lastUsable (id : NodeId) (nodes : List WireNode) : Option WireNode := nodes.reverse.find? (WireNode.isUsable id)

theorem lastUsable_append (id : NodeId) (front back : List WireNode) :
    lastUsable id (front ++ back) = (lastUsable id back).or (lastUsable id front) := by
  unfold lastUsable
  rw [List.reverse_append, List.find?_append]

theorem nodeId_of_lastUsable {id : NodeId} {nodes : List WireNode} {n : WireNode} (h : lastUsable id nodes = some n) :
    n.nodeId = id := by
  have := List.find?_some h
  simp only [WireNode.isUsable, decide_eq_true_eq] at this
  exact this.1

theorem lastUsable_singleton {id : NodeId} {n : WireNode} (hv4 : n.isV4 = true) :
    lastUsable id [n] = if n.nodeId = id ∧ n.tcpPort ≠ 0 then some n else none := by
  unfold lastUsable WireNode.isUsable
  rw [List.reverse_singleton, List.find?_singleton]
  simp [hv4]

theorem lookup_recordNode (lastSeen : Nat) (n : WireNode) (c : Discv4Client) (id : NodeId) :
    (recordNode lastSeen n.toNodeEntry c).peers.lookup (nodeKey id) =
      if n.nodeId = id ∧ n.tcpPort ≠ 0 then some (n.toNodeEntry.peer lastSeen) else c.peers.lookup (nodeKey id) := by
  rw [peers_recordNode]
  by_cases hport : n.tcpPort = 0
  · rw [if_pos hport, if_neg fun h => h.2 hport]
  · rw [if_neg hport]
    by_cases hid : n.nodeId = id
    · rw [if_pos ⟨hid, hport⟩, ← hid, Finmap.lookup_insert]
    · rw [if_neg fun h => hid h.1, Finmap.lookup_insert_of_ne _ fun h => hid (nodeKey_inj h).symm]

theorem lookup_recordNodes (input : HandlerInput) (id : NodeId) {nodes : List WireNode}
    (hv4 : ∀ n ∈ nodes, n.isV4 = true) (i : Nat)
    (c : Discv4Client) :
    ∃ t, (recordNodes input i nodes c).peers.lookup (nodeKey id) =
      ((lastUsable id nodes).map fun n => n.toNodeEntry.peer t).or (c.peers.lookup (nodeKey id)) := by
  induction nodes generalizing i c with
  | nil => exact ⟨0, rfl⟩
  | cons n nodes ih =>
      obtain ⟨t, ht⟩ := ih (fun m hm => hv4 m (List.mem_cons_of_mem n hm)) (i + 1)
        (recordNode (input.steadyTime i) n.toNodeEntry c)
      have hlast : lastUsable id (n :: nodes) = _ := lastUsable_append id [n] nodes
      rw [lookup_recordNode] at ht
      rw [hlast, lastUsable_singleton (hv4 n List.mem_cons_self), recordNodes, ht]
      cases lastUsable id nodes with
      | some m => exact ⟨t, rfl⟩
      | none =>
          refine ⟨input.steadyTime i, ?_⟩
          split_ifs <;> rfl

/-! ## Which packets lose a node -/

/-- Under the id of each usable node stands the last of them. -/
def Recorded (nodes : List WireNode) (peers : Table DiscoveredPeer) : Prop :=
  ∀ id n, lastUsable id nodes = some n → ∃ t, peers.lookup (nodeKey id) = some (n.toNodeEntry.peer t)

/-- What the client knows behind the nodes `front` is what `n` says. -/
def Known (front : List WireNode) (peers : Table DiscoveredPeer) (n : WireNode) : Prop :=
  match lastUsable n.nodeId front with
  | some m => ∀ t, m.toNodeEntry.peer t = n.toNodeEntry.peer t
  | none => ∃ t, peers.lookup (nodeKey n.nodeId) = some (n.toNodeEntry.peer t)

theorem recorded_iff {input : HandlerInput} {nodes : List WireNode} {c : Discv4Client} {i : Nat} :
    Recorded nodes (recordNodes input i (beforeLong nodes) c).peers ↔
      ∀ n, lastUsable n.nodeId (fromLong nodes) = some n → Known (beforeLong nodes) c.peers n := by
  have hlast (id : NodeId) : lastUsable id nodes =
      (lastUsable id (fromLong nodes)).or (lastUsable id (beforeLong nodes)) := by
    rw [← lastUsable_append, beforeLong_append_fromLong]
  have hv4 : ∀ n ∈ beforeLong nodes, n.isV4 = true := List.all_eq_true.mp List.all_takeWhile
  unfold Known
  constructor
  · intro h n hn
    obtain ⟨t, ht⟩ := h n.nodeId n (by rw [hlast, hn, Option.some_or])
    obtain ⟨u, hu⟩ := lookup_recordNodes input n.nodeId hv4 i c
    rw [ht] at hu
    cases hfront : lastUsable n.nodeId (beforeLong nodes) with
    | none =>
        rw [hfront] at hu
        exact ⟨t, hu.symm⟩
    | some m =>
        rw [hfront] at hu
        exact NodeEntry.peer_eq (Option.some.inj hu).symm
  · intro h id n hn
    obtain ⟨u, hu⟩ := lookup_recordNodes input id hv4 i c
    rw [hlast] at hn
    cases hback : lastUsable id (fromLong nodes) with
    | none =>
        rw [hback, Option.none_or] at hn
        rw [hn] at hu
        exact ⟨u, hu⟩
    | some m =>
        rw [hback, Option.some_or] at hn
        obtain rfl := Option.some.inj hn
        obtain rfl := nodeId_of_lastUsable hback
        have hknown := h m hback
        cases hfront : lastUsable m.nodeId (beforeLong nodes) with
        | none =>
            rw [hfront] at hu hknown
            obtain ⟨t, ht⟩ := hknown
            exact ⟨t, hu.trans ht⟩
        | some m' =>
            rw [hfront] at hu hknown
            exact ⟨u, hu.trans (congrArg some (hknown u))⟩

/-- **When every usable node is recorded.** After a solicited NEIGHBOURS packet the last usable node of each id stands
in the table, exactly when the usable nodes behind the first node with an address of sixteen bytes say nothing that the
client did not know in front of it. -/
theorem neighbours_recorded_iff (env : Discv4Primitives) (input : HandlerInput) (sender : Endpoint) (c : Discv4Client)
    (hsolicited : (pendingReply env sender kPacketTypeNeighbours c).isSome) (header : FixedBytes kWireHeaderSize)
    (payload : NeighboursPayload) (hsize : payload.encoding.length < 2 ^ 64) :
    Recorded payload.nodes (finalState (handleNeighbours env input (header.bytes ++ payload.encoding) sender c)).peers ↔
      ∀ n, lastUsable n.nodeId (fromLong payload.nodes) = some n → Known (beforeLong payload.nodes) c.peers n := by
  obtain ⟨entry, hentry⟩ := Option.isSome_iff_exists.mp hsolicited
  rw [handleNeighbours_payload env input sender c hentry header payload hsize]
  exact recorded_iff

/-! ## A node behind one with a long address -/

def sampleSender : Endpoint := ⟨⟨[10, 0, 0, 1], rfl⟩, 30303⟩

/-- A client that waits for the neighbours of the sender. -/
def askingClient : Discv4Client :=
  { startedClient with
    pendingReplies := Finmap.singleton (replyKey (ipText [10, 0, 0, 1]) 30303 kPacketTypeNeighbours) ⟨0, none,
      none, .zero 32⟩ }

def shortNode : WireNode := ⟨⟨[10, 0, 0, 2], 30303, 30303, .zero 64⟩, [], .inl rfl, nofun⟩

def longNode : WireNode := ⟨⟨List.replicate 16 0, 30303, 30303, .zero 64⟩, [], .inr rfl, nofun⟩

def samplePayload (nodes : List WireNode) : NeighboursPayload :=
  ⟨nodes, [encodeString [1]], by simpa using isItem_encodeString (by decide)⟩

/-- In front of the long address the usable node is recorded. -/
theorem node_before_long_address :
    Recorded [shortNode, longNode] (finalState (handleNeighbours curveEnv ⟨0, fun _ => 0⟩
      ((FixedBytes.zero kWireHeaderSize).bytes ++ (samplePayload [shortNode, longNode]).encoding) sampleSender
      askingClient)).peers := by
  refine (neighbours_recorded_iff curveEnv ⟨0, fun _ => 0⟩ sampleSender askingClient (by decide) (.zero _)
    (samplePayload [shortNode, longNode]) (by decide +kernel)).mpr ?_
  intro n hn
  have hnone : lastUsable n.nodeId [longNode] = none := by
    simp [lastUsable, WireNode.isUsable, WireNode.isV4, longNode, kIPv4Size]
  exact absurd (hnone.symm.trans hn) nofun

/-- **A usable node behind one with a long address is lost.** -/
theorem node_behind_long_address_is_lost :
    (pendingReply curveEnv sampleSender kPacketTypeNeighbours askingClient).isSome ∧
    lastUsable shortNode.nodeId [longNode, shortNode] = some shortNode ∧
    (finalState (handleNeighbours curveEnv ⟨0, fun _ => 0⟩
      ((FixedBytes.zero kWireHeaderSize).bytes ++ (samplePayload [longNode, shortNode]).encoding) sampleSender
      askingClient)).peers.lookup (nodeKey shortNode.nodeId) = none := by
  refine ⟨by decide, rfl, by decide +kernel⟩

end DevP2P.Discv4
