import DevP2P.Discv4.Bonding

/-!
# Replies of calls that wait at the same time

An entry is found under the endpoint and the type of the reply; a call that comes later puts its entry in the place of
the one that is there, and each call erases what it finds in that place.

* `Call.replyIn`, `replies` : the reply that a packet holds for a call, and those that a call has received;
* `Awaits` : a call that is the only one under its key finds its own entry, and has the last of its replies in its slot;
* `RepliesKept` : a reply ends the wait of its call, the call returns it, and no call erases the entry of another one;
* `NoOverlap`, `OneReply` : calls that wait at the same time wait for different replies; a call that ends has been sent,
  and has received no two replies that differ and no PONG with the expiration zero;
* `replies_kept_iff` : replies are kept exactly if both hold.
-/

namespace DevP2P.Discv4
open DevP2P.Lib DevP2P.Rlp Stateful

/-! ## Keys -/

theorem toNat_le_of_mem_toDigits {n : Nat} {c : Char} (hc : c ∈ Nat.toDigits 10 n) : c.toNat ≤ 57 := by
  have h := Nat.isDigit_of_mem_toDigits (by decide) (by decide) hc
  simp only [Char.isDigit, Bool.and_eq_true, decide_eq_true_eq] at h
  exact h.2

theorem colon_notMem_decimal (n : Nat) : (0x3A : UInt8) ∉ decimal n := by
  intro hmem
  obtain ⟨c, hc, hcolon⟩ := List.mem_map.mp hmem
  have hdigit := toNat_le_of_mem_toDigits hc
  have hmod := congrArg UInt8.toNat hcolon
  rw [UInt8.toNat_ofNat', Nat.mod_eq_of_lt (by omega)] at hmod
  have h58 : (0x3A : UInt8).toNat = 58 := rfl
  omega

theorem eq_of_append_colon {a b x y : Bytes} (hx : (0x3A : UInt8) ∉ x) (hy : (0x3A : UInt8) ∉ y)
    (h : a ++ [0x3A] ++ x = b ++ [0x3A] ++ y) : a = b := by
  have hshort : ∀ {a b l x : Bytes}, (0x3A : UInt8) ∉ l ++ x → b ++ [0x3A] = a ++ [0x3A] ++ l → a = b := by
    intro a b l x hl heq
    rcases List.eq_nil_or_concat l with rfl | ⟨l', last, rfl⟩
    · rw [List.append_nil] at heq
      exact (List.append_cancel_right heq).symm
    · rw [List.concat_eq_append, ← List.append_assoc] at heq
      obtain ⟨-, hlast⟩ := List.append_inj' heq rfl
      cases hlast
      exact absurd (by simp) hl
  rcases List.append_eq_append_iff.mp h with ⟨l, hb, rfl⟩ | ⟨l, ha, rfl⟩
  · exact hshort hx hb
  · exact (hshort hy ha).symm

theorem decimal_inj {m n : Nat} (h : decimal m = decimal n) : m = n := by
  have hback (n : Nat) : (decimal n).map (fun b => Char.ofNat b.toNat) = Nat.toDigits 10 n := by
    unfold decimal ascii
    rw [List.map_map]
    refine (List.map_congr_left fun c hc => ?_).trans (List.map_id _)
    have hdigit := toNat_le_of_mem_toDigits hc
    rw [Function.comp_apply, UInt8.toNat_ofNat', Nat.mod_eq_of_lt (by omega), Char.ofNat_toNat, id]
  rw [← Nat.ofDigitChars_toDigits (b := 10) (n := m) (by decide) (by decide), ← hback, h, hback,
    Nat.ofDigitChars_toDigits (by decide) (by decide)]

theorem replyKey_inj {ip ip' : Bytes} {port port' : Uint16} {ptype ptype' : UInt8}
    (h : replyKey ip port ptype = replyKey ip' port' ptype') : ip = ip' ∧ port = port' ∧ ptype = ptype' := by
  have hendpoint : endpointKey ip port = endpointKey ip' port' :=
    eq_of_append_colon (colon_notMem_decimal _) (colon_notMem_decimal _) h
  have hip : ip = ip' := eq_of_append_colon (colon_notMem_decimal _) (colon_notMem_decimal _) hendpoint
  unfold replyKey at h
  rw [hendpoint] at h
  unfold endpointKey at hendpoint
  rw [hip] at hendpoint
  exact ⟨hip, BitVec.eq_of_toNat_eq (decimal_inj (List.append_cancel_left hendpoint)),
    uint8_eq_of_toNat (decimal_inj (List.append_cancel_left h))⟩

/-! ## Replies -/

section

variable (env : Discv4Primitives) (call : Call)

/-- The reply in a packet that comes from the endpoint of the call and carries its token. -/
def Call.replyIn (data : Bytes) (sender : Endpoint) : Option Reply :=
  if env.addressToString sender.address = call.ip ∧ sender.port = call.port then
    match call.kind with
    | .ping => ((parsePong data).toOption.filter fun pong => pong.pingHash = call.sentHash).map .pong
    | .enrRequest =>
      ((parseEnrResponse data).toOption.filter fun response => response.requestHash = call.sentHash).map .enrResponse
    | .findNode _ => none
  else none

def Call.replyOf : Event → Option Reply
  | .received _ data sender => call.replyIn env data sender
  | _ => none

def replies (events : List Event) : List Reply := events.filterMap (call.replyOf env)

def Call.slot (c : Discv4Client) : Option Reply :=
  match call.kind with
  | .ping => (c.pongSlots.lookup call.id).map .pong
  | .enrRequest => (c.enrSlots.lookup call.id).map .enrResponse
  | .findNode _ => none

end

/-- What is not taken for an empty slot. -/
def Reply.usable : Reply → Bool
  | .pong reply => reply.expiration ≠ 0
  | .enrResponse reply => reply.recordRlp ≠ []
  | .void => true

theorem recordRlp_ne_nil {data : Bytes} {response : Discv4EnrResponse} (h : parseEnrResponse data = .ok response) :
    response.recordRlp ≠ [] := by
  unfold parseEnrResponse at h
  rw [Outcome.rejectIf_bind_eq_ok, Outcome.rejectIf_bind_eq_ok, outcome_eq_ok] at h
  obtain ⟨-, -, d, hread⟩ := h
  unfold readEnrResponse at hread
  obtain ⟨-, d₁, -, hread⟩ := bind_eq_ok.mp hread
  obtain ⟨hash, d₂, -, hread⟩ := bind_eq_ok.mp hread
  rw [get_bind, peekHeader_bind_eq_ok] at hread
  obtain ⟨header, w, hc, hread⟩ := hread
  obtain ⟨-, hread⟩ := rejectIf_bind_eq_ok.mp hread
  obtain ⟨-, d₃, -, hread⟩ := bind_eq_ok.mp hread
  obtain ⟨rfl, -⟩ := pure_eq_ok.mp hread
  simp only [ne_eq, List.take_eq_nil_iff, not_or]
  exact ⟨hc.total_pos.ne', hc.ne_nil⟩

section

variable {env : Discv4Primitives} {call : Call} {data : Bytes} {sender : Endpoint} {reply : Reply}

theorem replyIn_eq_some_iff : call.replyIn env data sender = some reply ↔
    (env.addressToString sender.address = call.ip ∧ sender.port = call.port) ∧
      ((call.kind = .ping ∧ ∃ pong, parsePong data = .ok pong ∧ pong.pingHash = call.sentHash ∧ reply = .pong pong) ∨
        (call.kind = .enrRequest ∧ ∃ response, parseEnrResponse data = .ok response ∧
          response.requestHash = call.sentHash ∧ reply = .enrResponse response)) := by
  unfold Call.replyIn
  split_ifs with hsender
  · rw [and_iff_right hsender]
    cases call.kind with
    | ping => cases parsePong data <;> simp [Except.toOption, Option.filter, eq_comm (a := reply), ite_eq_iff]
    | enrRequest =>
        cases parseEnrResponse data <;> simp [Except.toOption, Option.filter, eq_comm (a := reply), ite_eq_iff]
    | findNode targetId => simp
  · simp [hsender]

theorem usable_of_mem_replies {events : List Event} (h : reply ∈ replies env call events)
    (hpong : ∀ pong, reply = .pong pong → pong.expiration ≠ 0) : reply.usable = true := by
  obtain ⟨event, -, hevent⟩ := List.mem_filterMap.mp h
  cases event with
  | received t data sender =>
      obtain ⟨-, ⟨-, pong, -, -, rfl⟩ | ⟨-, response, hparse, -, rfl⟩⟩ := replyIn_eq_some_iff.mp hevent
      · simpa [Reply.usable] using hpong pong rfl
      · simpa [Reply.usable] using recordRlp_ne_nil hparse
  | _ => cases hevent

theorem outcome_of_slot {c : Discv4Client} (h : call.slot c = some reply) :
    call.outcome c = if reply.usable then .ok reply else .error .kPongTimeout := by
  unfold Call.slot at h
  unfold Call.outcome
  cases hkind : call.kind <;> simp only [hkind, Option.map_eq_some_iff, reduceCtorEq] at h ⊢ <;>
    obtain ⟨_, hlookup, rfl⟩ := h <;> simp [hlookup, Reply.usable]

theorem replies_of_not_received {event : Event} (h : event.isReceived = false) : call.replyOf env event = none := by
  cases event with
  | received t data sender => cases h
  | _ => rfl

def lastReply (env : Discv4Primitives) (call : Call) (events : List Event) (stored : Option Reply) : Option Reply :=
  (replies env call events).getLast?.or stored

theorem lastReply_append {events more : List Event} (stored : Option Reply)
    (h : ∀ event ∈ more, event.isReceived = false) :
    lastReply env call (events ++ more) stored = lastReply env call events stored := by
  have hnone : replies env call more = [] :=
    List.filterMap_eq_nil_iff.mpr fun event hevent => replies_of_not_received (h event hevent)
  unfold lastReply
  rw [replies, List.filterMap_append]
  exact congrArg (fun rs => (List.getLast? (replies env call events ++ rs)).or stored) hnone |>.trans (by simp)

theorem lastReply_received (events : List Event) (stored : Option Reply) (t : Nat) :
    lastReply env call (events ++ [.received t data sender]) stored =
      (call.replyIn env data sender).or (lastReply env call events stored) := by
  have hlast : call.replyOf env (.received t data sender) = call.replyIn env data sender := rfl
  unfold lastReply replies
  rw [List.filterMap_append]
  cases hreply : call.replyIn env data sender with
  | none => rw [List.filterMap_cons_none (hlast.trans hreply), List.filterMap_nil, List.append_nil, Option.none_or]
  | some reply =>
      rw [List.filterMap_cons_some (hlast.trans hreply), List.filterMap_nil, List.getLast?_concat]
      rfl

end

theorem handlePacket_of_pong (env : Discv4Primitives) (input : HandlerInput) {data : Bytes} (sender : Endpoint)
    (c : Discv4Client)
    {pong : Discv4Pong} (hparse : parsePong data = .ok pong) {entry : PendingReply} {slot : Nat}
    (hentry : pendingReply env sender kPacketTypePong c = some entry) (htoken : pong.pingHash = entry.expectedHash)
    (hslot : entry.pong = some slot) :
    finalState (handlePacket env input data sender c) =
      { storePong slot pong c with cancelled := c.cancelled ++ [entry.timer] } := by
  have hchecks := id hparse
  unfold parsePong at hchecks
  rw [Outcome.rejectIf_bind_eq_ok, Outcome.rejectIf_bind_eq_ok] at hchecks
  have hlen : kWireHeaderSize ≤ data.length := by
    have hsize := hchecks.1
    simp only [kWireHeaderSize, kWirePacketTypeSize] at hsize ⊢
    omega
  unfold handlePacket
  rw [rejectIf_bind_of_not (by omega), not_not.mp hchecks.2.1]
  exact acceptReply_of_awaited env sender c hlen hparse hentry htoken hslot

theorem handlePacket_of_enrResponse (env : Discv4Primitives) (input : HandlerInput) {data : Bytes} (sender : Endpoint)
    (c : Discv4Client) {response : Discv4EnrResponse} (hparse : parseEnrResponse data = .ok response)
    {entry : PendingReply}
    {slot : Nat} (hentry : pendingReply env sender kPacketTypeEnrResponse c = some entry)
    (htoken : response.requestHash = entry.expectedHash) (hslot : entry.enrResponse = some slot) :
    finalState (handlePacket env input data sender c) =
      { storeEnrResponse slot response c with cancelled := c.cancelled ++ [entry.timer] } := by
  have hchecks := id hparse
  unfold parseEnrResponse at hchecks
  rw [Outcome.rejectIf_bind_eq_ok, Outcome.rejectIf_bind_eq_ok] at hchecks
  have hlen : kWireHeaderSize ≤ data.length := by omega
  unfold handlePacket
  rw [rejectIf_bind_of_not (by omega), not_not.mp hchecks.2.1]
  exact acceptReply_of_awaited env sender c hlen hparse hentry htoken hslot


namespace Discovery

variable {env : RequestPrimitives} {node : LocalNode} {config : Discv4Config} {d d' : Discovery} {call : Call}

theorem slot_of_replyIn (input : HandlerInput) {c : Discv4Client} {data : Bytes} {sender : Endpoint} {reply : Reply}
    (hentry : c.pendingReplies.lookup call.key = some call.entry)
    (hreply : call.replyIn env.toDiscv4Primitives data sender = some reply) :
    let c' := finalState (handlePacket env.toDiscv4Primitives input data sender c)
    call.slot c' = some reply ∧ call.id ∈ c'.cancelled := by
  obtain ⟨⟨hip, hport⟩, hmatch⟩ := replyIn_eq_some_iff.mp hreply
  have hpending : pendingReply env.toDiscv4Primitives sender call.kind.replyType c = some call.entry := by
    rw [pendingReply, hip, hport]
    exact hentry
  obtain ⟨kind, ip, port, id, packet⟩ := call
  obtain ⟨rfl, pong, hparse, htoken, rfl⟩ | ⟨rfl, response, hparse, htoken, rfl⟩ := hmatch
  · dsimp only
    rw [handlePacket_of_pong env.toDiscv4Primitives input sender c hparse hpending htoken rfl]
    refine ⟨?_, List.mem_append_right _ (List.mem_singleton_self _)⟩
    show ((c.pongSlots.insert id pong).lookup id).map Reply.pong = _
    rw [Finmap.lookup_insert, Option.map_some]
  · dsimp only
    rw [handlePacket_of_enrResponse env.toDiscv4Primitives input sender c hparse hpending htoken rfl]
    refine ⟨?_, List.mem_append_right _ (List.mem_singleton_self _)⟩
    show ((c.enrSlots.insert id response).lookup id).map Reply.enrResponse = _
    rw [Finmap.lookup_insert, Option.map_some]

theorem slot_of_replyIn_none (hnumbered : Numbered d) (hcall : call ∈ d.calls) (input : HandlerInput) {data : Bytes}
    {sender : Endpoint} (hreply : call.replyIn env.toDiscv4Primitives data sender = none) :
    call.slot (finalState (handlePacket env.toDiscv4Primitives input data sender d.client)) =
      call.slot d.client := by
  have hno (reply : Reply) : call.replyIn env.toDiscv4Primitives data sender ≠ some reply := by simp [hreply]
  unfold Call.slot
  rcases handlePacket_cases env.toDiscv4Primitives input data sender d.client with hsame | hbonds | hpong | henr
  · rw [hsame.pongSlots, hsame.enrSlots]
  · obtain ⟨packet, heq⟩ := hbonds.eq
    rw [heq]
  · -- a PONG in the slot of the call would be a reply for it
    obtain ⟨pong, entry, slot, hparse, hfound, htoken, hslot, heq⟩ := hpong
    have hother : call.id ≠ slot := by
      rintro rfl
      obtain ⟨hkey, rfl⟩ := hnumbered.owned_of_pong hfound hcall hslot
      obtain ⟨hkind, -⟩ := eq_id_of_pong hslot
      rw [entry_of_ping hkind] at htoken
      obtain ⟨hip, hport, -⟩ := replyKey_inj hkey
      exact hno _ (replyIn_eq_some_iff.mpr ⟨⟨hip, hport⟩, .inl ⟨hkind, pong, hparse, htoken, rfl⟩⟩)
    rw [heq]
    cases call.kind with
    | ping => exact congrArg (Option.map _) (Finmap.lookup_insert_of_ne _ hother)
    | _ => rfl
  · obtain ⟨response, entry, slot, hparse, hfound, htoken, hslot, heq⟩ := henr
    have hother : call.id ≠ slot := by
      rintro rfl
      obtain ⟨hkey, rfl⟩ := hnumbered.owned_of_enrResponse hfound hcall hslot
      obtain ⟨hkind, -⟩ := eq_id_of_enrResponse hslot
      rw [Call.entry, hkind] at htoken
      obtain ⟨hip, hport, -⟩ := replyKey_inj hkey
      exact hno _ (replyIn_eq_some_iff.mpr ⟨⟨hip, hport⟩, .inr ⟨hkind, response, hparse, htoken, rfl⟩⟩)
    rw [heq]
    cases call.kind with
    | enrRequest => exact congrArg (Option.map _) (Finmap.lookup_insert_of_ne _ hother)
    | _ => rfl

/-! ## A call that waits alone -/

/-- The call waits, and no other one does under its key. -/
def Alone (call : Call) (d : Discovery) : Prop := (d.calls.filter fun other => other.key = call.key) = [call]

theorem Alone.mem (h : Alone call d) : call ∈ d.calls := by
  unfold Alone at h
  exact (List.mem_filter.mp (h ▸ List.mem_singleton_self call)).1

theorem alone_of_nodup (hnodup : (d.calls.map Call.key).Nodup) (hcall : call ∈ d.calls) : Alone call d := by
  obtain ⟨before, after, heq⟩ := List.append_of_mem hcall
  rw [heq, List.map_append, List.map_cons, List.nodup_middle, List.nodup_cons, ← List.map_append] at hnodup
  have hother (other : Call) (hmem : other ∈ before ++ after) : ¬ decide (other.key = call.key) = true := by
    rw [decide_eq_true_eq]
    exact fun hsame => hnodup.1 (hsame ▸ List.mem_map_of_mem hmem)
  unfold Alone
  rw [heq, List.filter_append, List.filter_cons_of_pos (by simp),
    List.filter_eq_nil_iff.mpr fun other hmem => hother other (List.mem_append_left _ hmem),
    List.filter_eq_nil_iff.mpr fun other hmem => hother other (List.mem_append_right _ hmem), List.nil_append]

theorem Alone.of_sublist (h : Alone call d) (hsub : d'.calls.Sublist d.calls) (hcall : call ∈ d'.calls) :
    Alone call d' := by
  unfold Alone at h
  rcases List.sublist_singleton.mp (h ▸ hsub.filter _) with hnil | hone
  · exact absurd (decide_eq_true rfl) (List.filter_eq_nil_iff.mp hnil call hcall)
  · exact hone

theorem Alone.ne_of_complete {k : Nat} {done : Call} {sending : Bool} {caller : Caller}
    {result : Except RequestError Reply}
    (h : Alone call d) (hco : d.coroutines[k]? = some (.request done sending caller))
    (hcall : call ∈ (d.complete k done result).calls) : call.key ≠ done.key := by
  intro hsame
  obtain ⟨before, after, hbefore, hafter⟩ := calls_complete d k done result hco
  rw [hafter] at hcall
  -- the end would leave no call under the key
  rw [Alone, hbefore, List.filter_append, List.filter_cons_of_pos (by simpa using hsame.symm)] at h
  have hlength := congrArg List.length h
  rw [List.length_append, List.length_cons, List.length_singleton, ← Nat.add_assoc, ← List.length_append,
    ← List.filter_append] at hlength
  have hnone := List.length_eq_zero_iff.mp (Nat.succ.inj hlength)
  exact List.filter_eq_nil_iff.mp hnone call hcall (by simp)

/-- The call finds its entry while the client runs, and its slot holds the last of its replies in the events since
`start`, or what was in it then. -/
structure Awaits (env : RequestPrimitives) (call : Call) (start : List Event) (stored : Option Reply) (d : Discovery) :
    Prop where
  alone : Alone call d
  address : env.isAddress call.ip = true
  entry : d.client.pendingReplies.lookup call.key = some call.entry ∨
    d.client.pendingReplies.lookup call.key = none ∧ d.client.running = false
  slot : ∃ events, d.trace = start ++ events ∧
    call.slot d.client = lastReply env.toDiscv4Primitives call events stored

section

variable {start : List Event} {stored : Option Reply}

theorem Awaits.entry_of_running (h : Awaits env call start stored d) (hrunning : d.client.running = true) :
    d.client.pendingReplies.lookup call.key = some call.entry := by
  rcases h.entry with hown | ⟨-, hstopped⟩
  · exact hown
  · rw [hrunning] at hstopped
    cases hstopped

theorem Awaits.rebase (h : Awaits env call start stored d) : Awaits env call d.trace (call.slot d.client) d :=
  ⟨h.alone, h.address, h.entry, [], (List.append_nil _).symm, rfl⟩

theorem Awaits.receive (h : Awaits env call start stored d) (hnumbered : Numbered d) (input : HandlerInput)
    (data : Bytes) (sender : Endpoint) (hrunning : d.client.running = true) :
    Awaits env call start stored (d.receive env input data sender) := by
  obtain ⟨-, -, hpending, -⟩ := handlePacket_keeps env.toDiscv4Primitives input data sender d.client
  obtain ⟨events, htrace, hslot⟩ := h.slot
  have hentry := h.entry_of_running hrunning
  unfold Discovery.receive
  rw [if_pos hrunning]
  refine ⟨h.alone, h.address, ?_, events ++ [.received input.unixTime data sender], ?_, ?_⟩ <;> dsimp only [emit]
  · rw [hpending]
    exact .inl hentry
  · rw [htrace, List.append_assoc]
  · rw [lastReply_received]
    cases hreply : call.replyIn env.toDiscv4Primitives data sender with
    | some reply => exact (slot_of_replyIn input hentry hreply).1
    | none => exact (slot_of_replyIn_none hnumbered h.alone.mem input hreply).trans hslot

theorem Awaits.move (h : Awaits env call start stored d) (hnumbered : Numbered d) (hmove : Move env d d')
    (hcall : call ∈ d'.calls) : Awaits env call start stored d' := by
  have halone := h.alone.of_sublist (calls_sublist_of_move hmove) hcall
  obtain ⟨events, htrace, hslot⟩ := h.slot
  cases hmove with
  | quiet hquiet =>
      obtain ⟨more, hmore, hquietEvents⟩ := hquiet.trace
      refine ⟨halone, h.address, ?_, events ++ more, ?_, ?_⟩
      · rw [hquiet.client.pendingReplies, hquiet.client.running]
        exact h.entry
      · rw [hmore, htrace, List.append_assoc]
      · rw [lastReply_append _ hquietEvents, ← hslot]
        unfold Call.slot
        rw [hquiet.client.pongSlots, hquiet.client.enrSlots]
  | @complete k done _ _ result hco _ =>
      have hne := h.alone.ne_of_complete hco hcall
      refine ⟨halone, h.address, ?_, events ++ [.returned (some done.id) result], ?_, ?_⟩
      · rw [client_complete]
        dsimp only
        rw [Finmap.lookup_erase_ne hne]
        exact h.entry
      · show d.trace ++ [_] = _
        rw [htrace, List.append_assoc]
      · rw [client_complete, lastReply_append _ (by simp [Event.isReceived])]
        exact hslot
  | receive input data sender hrunning => exact h.receive hnumbered input data sender hrunning
  | stop => exact ⟨halone, h.address, .inr ⟨Finmap.lookup_empty _, rfl⟩, events, htrace, hslot⟩

theorem Awaits.launch (h : Awaits env call start stored d) (hid : call.id < d.nextId) (hlaunch : Launches env node d d')
    (halone : Alone call d') : Awaits env call start stored d' := by
  obtain ⟨input, kind, ip, port, caller, packet, -, rfl⟩ := hlaunch
  obtain ⟨events, htrace, hslot⟩ := h.slot
  have hother : call.key ≠ replyKey ip port kind.replyType := by
    intro hsame
    -- the new call would wait beside this one
    have hnew : ⟨kind, ip, port, d.nextId, packet⟩ ∈ (d.launch env kind ip port caller packet).calls := by
      have hip : call.ip = ip := (replyKey_inj hsame).1
      rw [calls_launch, if_pos (hip ▸ h.address)]
      exact List.mem_append_right _ (List.mem_singleton_self _)
    unfold Alone at halone
    have hmem := halone ▸ List.mem_filter.mpr ⟨hnew, decide_eq_true hsame.symm⟩
    rw [← List.mem_singleton.mp hmem] at hid
    exact absurd hid (lt_irrefl _)
  refine ⟨halone, h.address, ?_, ?_⟩ <;> rw [client_launch]
  · dsimp only
    rw [Finmap.lookup_insert_of_ne _ hother]
    exact h.entry
  · rw [trace_launch]
    split_ifs
    · refine ⟨events ++ [.sent packet ip port], by rw [htrace, List.append_assoc], ?_⟩
      rw [lastReply_append _ (by simp [Event.isReceived])]
      exact hslot
    · exact ⟨events, htrace, hslot⟩

theorem nextId_of_moves (h : Relation.ReflTransGen (Move env) d d') : d'.nextId = d.nextId := by
  refine moves_invariant (I := fun d' => d'.nextId = d.nextId) (fun hmove h => Eq.trans ?_ h) h rfl
  cases hmove with
  | quiet hquiet => exact hquiet.nextId
  | complete hco _ => rfl
  | receive input data sender hrunning =>
      unfold Discovery.receive
      rw [if_pos hrunning]
      rfl
  | stop => rfl

theorem calls_of_moves (h : Relation.ReflTransGen (Move env) d d') : d'.calls.Sublist d.calls :=
  moves_invariant (I := fun d' => d'.calls.Sublist d.calls) (fun hmove h => (calls_sublist_of_move hmove).trans h) h
    (.refl _)

theorem mem_calls_of_reaches (h : Reaches env node d d') (hid : call.id < d.nextId) :
    call.id < d'.nextId ∧ (call ∈ d'.calls → call ∈ d.calls) := by
  obtain ⟨d₁, hmoves, hlast⟩ := h
  have hnext := nextId_of_moves hmoves
  have hcalls := (calls_of_moves hmoves).subset
  rcases hlast with rfl | ⟨input, kind, ip, port, caller, packet, -, rfl⟩
  · exact ⟨hnext ▸ hid, fun hcall => hcalls hcall⟩
  · rw [nextId_launch, hnext]
    refine ⟨Nat.lt_succ_of_lt hid, fun hcall => ?_⟩
    rcases mem_calls_launch hcall with hold | ⟨rfl, -⟩
    · exact hcalls hold
    · exact absurd hid (hnext ▸ lt_irrefl _)

theorem Awaits.reaches (h : Awaits env call start stored d) (hnumbered : Numbered d) (hreaches : Reaches env node d d')
    (halone : Alone call d') : Awaits env call start stored d' := by
  obtain ⟨d₁, hmoves, hlast⟩ := hreaches
  -- along the moves the call waits until it waits no more
  have hawaits : Numbered d₁ ∧ (call ∈ d₁.calls → Awaits env call start stored d₁) := by
    refine moves_invariant (I := fun d => Numbered d ∧ (call ∈ d.calls → Awaits env call start stored d)) ?_ hmoves
      ⟨hnumbered, fun _ => h⟩
    rintro d d' hmove ⟨hd, hI⟩
    exact ⟨hd.move hmove, fun hcall => (hI ((calls_sublist_of_move hmove).subset hcall)).move hd hmove hcall⟩
  rcases hlast with rfl | hlaunch
  · exact hawaits.2 halone.mem
  · have hid : call.id < d₁.nextId := nextId_of_moves hmoves ▸ hnumbered.call_lt call h.alone.mem
    have hcall := (mem_calls_of_reaches ⟨d₁, .refl, .inr hlaunch⟩ hid).2 halone.mem
    exact (hawaits.2 hcall).launch hid hlaunch halone

theorem awaits_of_new (hnumbered : Numbered d) (hreaches : Reaches env node d d') (hnew : call ∉ d.calls)
    (halone : Alone call d') : Awaits env call d'.trace none d' := by
  obtain ⟨d₁, hmoves, hlast⟩ := hreaches
  have hnumbered₁ : Numbered d₁ := moves_invariant (fun hmove h => h.move hmove) hmoves hnumbered
  have hold := (calls_of_moves hmoves).subset
  rcases hlast with rfl | ⟨input, kind, ip, port, caller, packet, -, rfl⟩
  · exact absurd (hold halone.mem) hnew
  · obtain ⟨rfl, haddress⟩ := (mem_calls_launch halone.mem).resolve_left fun hcall => hnew (hold hcall)
    refine ⟨halone, haddress, ?_, [], (List.append_nil _).symm, ?_⟩ <;> rw [client_launch]
    · exact .inl (Finmap.lookup_insert _)
    · -- its number is new, and so is its slot
      show Call.slot _ _ = none
      have hpong : d₁.client.pongSlots.lookup d₁.nextId = none := Option.eq_none_iff_forall_ne_some.mpr
        fun pong hpong => absurd (hnumbered₁.pongSlot_lt _ pong hpong) (lt_irrefl _)
      have henr : d₁.client.enrSlots.lookup d₁.nextId = none := Option.eq_none_iff_forall_ne_some.mpr
        fun response henr => absurd (hnumbered₁.enrSlot_lt _ response henr) (lt_irrefl _)
      cases kind <;> simp [Call.slot, hpong, henr]

end

/-- While it waits, a call is the only one under its key. -/
def StaysAlone (env : RequestPrimitives) (node : LocalNode) (config : Discv4Config) (call : Call)
    (before during : List (HandlerInput × DiscoveryAction)) : Prop :=
  ∀ waited, waited <+: during → call ∈ (run env node config (before ++ waited)).calls →
    Alone call (run env node config (before ++ waited))

theorem Awaits.run {start : List Event} {stored : Option Reply} {before during : List (HandlerInput × DiscoveryAction)}
    (h : Awaits env call start stored (run env node config before))
    (halone : StaysAlone env node config call before during)
    (hcall : call ∈ (run env node config (before ++ during)).calls) :
    Awaits env call start stored (Discovery.run env node config (before ++ during)) := by
  suffices hboth : call.id < (Discovery.run env node config (before ++ during)).nextId ∧
      (call ∈ (Discovery.run env node config (before ++ during)).calls →
        Awaits env call start stored (Discovery.run env node config (before ++ during))) from hboth.2 hcall
  clear hcall
  induction during using List.reverseRecOn with
  | nil =>
      rw [List.append_nil]
      exact ⟨(numbered_run before).call_lt call h.alone.mem, fun _ => h⟩
  | append_singleton during action ih =>
      obtain ⟨hid, hawaits⟩ := ih fun waited hwaited => halone waited (hwaited.trans (List.prefix_append _ _))
      have hlast := halone _ (List.prefix_refl _)
      rw [← List.append_assoc, run_concat] at hlast ⊢
      have hreaches := @reaches_step env node (Discovery.run env node config (before ++ during)) action
      obtain ⟨hnext, hold⟩ := mem_calls_of_reaches hreaches hid
      exact ⟨hnext, fun hcall => (hawaits (hold hcall)).reaches (numbered_run _) hreaches (hlast hcall)⟩

/-! ## The end of a call -/

/-- The call ends: its packet was not sent, or its wait is over. -/
def Ends (d : Discovery) (call : Call) : DiscoveryAction → Prop
  | .sendReturns k false => ∃ caller, d.coroutines[k]? = some (.request call true caller)
  | .waitReturns k => ∃ caller, d.coroutines[k]? = some (.request call false caller)
  | _ => False

/-- With this action, the call returns `result`. -/
def Returns (env : RequestPrimitives) (node : LocalNode) (d : Discovery) (action : HandlerInput × DiscoveryAction)
    (call : Call) (result : Except RequestError Reply) : Prop :=
  ∃ more, (d.step env node action).trace = d.trace ++ .returned (some call.id) result :: more

theorem Returns.eq {action : HandlerInput × DiscoveryAction} {result result' : Except RequestError Reply}
    (h : d.Returns env node action call result) (h' : d.Returns env node action call result') : result = result' := by
  obtain ⟨more, hmore⟩ := h
  obtain ⟨more', hmore'⟩ := h'
  exact (Event.returned.inj (List.cons.inj (List.append_cancel_left (hmore.symm.trans hmore'))).1).2

theorem trace_of_reaches (h : Reaches env node d d') : d.trace <+: d'.trace := by
  obtain ⟨d₁, hmoves, hlast⟩ := h
  have hgrows : d.trace <+: d₁.trace := by
    refine moves_invariant (I := fun d₁ => d.trace <+: d₁.trace) ?_ hmoves (List.prefix_refl _)
    intro d₁ d₂ hmove h
    refine h.trans ?_
    cases hmove with
    | quiet hquiet =>
        obtain ⟨more, hmore, -⟩ := hquiet.trace
        exact ⟨more, hmore.symm⟩
    | complete hco _ => exact List.prefix_append _ _
    | receive input data sender hrunning =>
        unfold Discovery.receive
        rw [if_pos hrunning]
        exact List.prefix_append _ _
    | stop => exact List.prefix_refl _
  rcases hlast with rfl | ⟨input, kind, ip, port, caller, packet, -, rfl⟩
  · exact hgrows
  · refine hgrows.trans ?_
    rw [trace_launch]
    split_ifs
    · exact List.prefix_append _ _
    · exact List.prefix_refl _

theorem returns_of_complete {action : HandlerInput × DiscoveryAction} {k : Nat} {result : Except RequestError Reply}
    (h : Reaches env node (d.complete k call result) (d.step env node action)) :
    d.Returns env node action call result := by
  obtain ⟨more, hmore⟩ := trace_of_reaches h
  exact ⟨more, hmore.symm.trans (List.append_assoc _ _ _)⟩

theorem reaches_of_wait (hlive : d.terminated = false) {k : Nat} {caller : Caller}
    (hwaits : d.coroutines[k]? = some (.request call false caller)) (input : HandlerInput) :
    Reaches env node (d.complete k call (call.outcome d.client)) (d.step env node (input, .waitReturns k)) := by
  unfold step
  rw [hlive, if_neg (by simp)]
  change Reaches env node _ (d.waitReturns env node input k)
  unfold waitReturns
  rw [hwaits]
  exact reaches_resume call caller _ _

theorem returns_outcome (hlive : d.terminated = false) {k : Nat} {caller : Caller}
    (hwaits : d.coroutines[k]? = some (.request call false caller)) (input : HandlerInput) :
    d.Returns env node (input, .waitReturns k) call (call.outcome d.client) :=
  returns_of_complete (reaches_of_wait hlive hwaits input)

theorem returns_sendFailed (hlive : d.terminated = false) {k : Nat} {caller : Caller}
    (hsending : d.coroutines[k]? = some (.request call true caller)) (input : HandlerInput) :
    d.Returns env node (input, .sendReturns k false) call call.sendFailed := by
  refine returns_of_complete (k := k) ?_
  unfold step
  rw [hlive, if_neg (by simp)]
  change Reaches env node _ (d.sendReturns env node input k false)
  unfold sendReturns
  rw [hsending]
  exact reaches_resume call caller _ _

/-! ## When replies are kept -/

section

variable (env : RequestPrimitives) (node : LocalNode) (config : Discv4Config)

def Listens (d : Discovery) : Prop := d.client.running = true ∧ d.terminated = false

/-- The end of a call leaves the entries of the other ones. -/
def Spares (d : Discovery) : Prop :=
  ∀ (k : Nat) (call : Call) (sending : Bool) (caller : Caller), d.coroutines[k]? = some (.request call sending caller) →
    ∀ result key entry, d.client.pendingReplies.lookup key = some entry → entry.timer ≠ call.id →
      (d.complete k call result).client.pendingReplies.lookup key = some entry

/-- `P` holds of each call when it ends, and of the replies that it has received since any point at which it waited. -/
def AtEnds (P : Discovery → HandlerInput × DiscoveryAction → Call → List Reply → Prop)
    (actions : List (HandlerInput × DiscoveryAction)) : Prop :=
  ∀ before during action rest, actions = before ++ during ++ action :: rest →
    let d := run env node config (before ++ during)
    ∀ call ∈ (run env node config before).calls, d.terminated = false → d.Ends call action.2 →
      P d action call (replies env.toDiscv4Primitives call (d.trace.drop (run env node config before).trace.length))

/-- Along the run, a reply ends the wait of its call, no call erases the entry of another one, and each call returns the
replies that it has received. -/
def RepliesKept (actions : List (HandlerInput × DiscoveryAction)) : Prop :=
  (∀ before after, actions = before ++ after →
    let d := run env node config before
    (∀ input data sender rest, after = (input, .receive data sender) :: rest → d.Listens → ∀ call ∈ d.calls,
      (call.replyIn env.toDiscv4Primitives data sender).isSome →
        call.id ∈ (d.step env node (input, .receive data sender)).client.cancelled) ∧ d.Spares) ∧
  AtEnds env node config (fun d action call replies => ∀ reply ∈ replies, d.Returns env node action call (.ok reply))
    actions

/-- At each point of the run, no two calls wait under one key. -/
def NoOverlap (actions : List (HandlerInput × DiscoveryAction)) : Prop :=
  ∀ before after, actions = before ++ after → ((run env node config before).calls.map Call.key).Nodup

/-- A call that has received a reply ends by the end of its wait, has received no other reply, and no PONG with the
expiration zero, which stands for a slot that was not filled. -/
def OneReply : List (HandlerInput × DiscoveryAction) → Prop :=
  AtEnds env node config fun _ action _ replies => ∀ reply ∈ replies, (∃ k, action.2 = .waitReturns k) ∧
    (∀ pong, reply = .pong pong → pong.expiration ≠ 0) ∧ ∀ other ∈ replies, other = reply

end

theorem nodup_of_moves (h : Relation.ReflTransGen (Move env) d d') (hnodup : (d.calls.map Call.key).Nodup) :
    (d'.calls.map Call.key).Nodup := hnodup.sublist ((calls_of_moves h).map _)

theorem nodup_of_spares (hreaches : Reaches env node d d') (hnodup : (d.calls.map Call.key).Nodup)
    (hnumbered : Numbered d) (hspares : Spares d') : (d'.calls.map Call.key).Nodup := by
  obtain ⟨d₁, hmoves, rfl | ⟨input, kind, ip, port, caller, packet, -, rfl⟩⟩ := hreaches
  · exact nodup_of_moves hmoves hnodup
  · have hnodup₁ := nodup_of_moves hmoves hnodup
    have hnumbered₁ : Numbered d₁ := moves_invariant (fun hmove h => h.move hmove) hmoves hnumbered
    have hcalls := calls_launch env d₁ kind ip port caller packet
    split_ifs at hcalls with haddress
    · rw [hcalls, List.map_append, List.nodup_append]
      refine ⟨hnodup₁, List.nodup_singleton _, ?_⟩
      intro key hkey key' hkey'
      obtain ⟨other, hother, rfl⟩ := List.mem_map.mp hkey
      rw [List.map_singleton, List.mem_singleton] at hkey'
      subst hkey'
      intro hsame
      -- the other call would erase the entry of the new one
      obtain ⟨k, sending, caller', hco⟩ := exists_of_mem_calls (d := d₁.launch env kind ip port caller packet)
        (hcalls ▸ List.mem_append_left _ hother)
      have hlookup : (d₁.launch env kind ip port caller packet).client.pendingReplies.lookup other.key =
          some (Call.entry ⟨kind, ip, port, d₁.nextId, packet⟩) := by
        rw [client_launch, hsame]
        exact Finmap.lookup_insert _
      have hne : (Call.entry ⟨kind, ip, port, d₁.nextId, packet⟩).timer ≠ other.id := by
        rw [timer_entry]
        exact (hnumbered₁.call_lt other hother).ne'
      have hkept := hspares k other sending caller' hco (.ok .void) other.key _ hlookup hne
      rw [client_complete] at hkept
      cases (Finmap.lookup_erase _ _).symm.trans hkept
    · rw [hcalls]
      exact hnodup₁

theorem awaits_of_noOverlap {actions : List (HandlerInput × DiscoveryAction)} (h : NoOverlap env node config actions) :
    ∀ before after, actions = before ++ after → ∀ call ∈ (run env node config before).calls,
      ∃ start, Awaits env call start none (run env node config before) := by
  intro before
  induction before using List.reverseRecOn with
  | nil => exact fun _ _ _ hcall => nomatch hcall
  | append_singleton before action ih =>
      intro after hsplit call hcall
      have hsplit' : actions = before ++ ([action] ++ after) := by rw [hsplit, List.append_assoc]
      have halone := alone_of_nodup (h _ _ hsplit) hcall
      rw [run_concat] at halone ⊢
      by_cases hold : call ∈ (run env node config before).calls
      · obtain ⟨start, hawaits⟩ := ih _ hsplit' call hold
        exact ⟨start, hawaits.reaches (numbered_run _) (reaches_step _ action) halone⟩
      · exact ⟨_, awaits_of_new (numbered_run _) (reaches_step _ action) hold halone⟩

theorem spares_of_awaits (h : ∀ call ∈ d.calls, ∃ start, Awaits env call start none d) : d.Spares := by
  intro k call sending caller hco result key entry hlookup hne
  rw [client_complete]
  have hkey : key ≠ call.key := by
    rintro rfl
    obtain ⟨start, hawaits⟩ := h call (mem_calls d k call hco)
    rcases hawaits.entry with hown | ⟨hnone, -⟩
    · rw [hown] at hlookup
      cases hlookup
      exact hne (timer_entry call)
    · rw [hnone] at hlookup
      cases hlookup
  exact (Finmap.lookup_erase_ne hkey).trans hlookup

theorem step_receive (hlistens : d.Listens) (input : HandlerInput) (data : Bytes) (sender : Endpoint) :
    (d.step env node (input, .receive data sender)).client =
      finalState (handlePacket env.toDiscv4Primitives input data sender d.client) := by
  unfold step
  rw [hlistens.2, if_neg (by simp)]
  show (d.receive env input data sender).client = _
  unfold Discovery.receive
  rw [if_pos hlistens.1]
  rfl

theorem noOverlap_of_kept {actions : List (HandlerInput × DiscoveryAction)} (h : RepliesKept env node config actions) :
    NoOverlap env node config actions := by
  intro before
  induction before using List.reverseRecOn with
  | nil => exact fun _ _ => List.nodup_nil
  | append_singleton before action ih =>
      intro after hsplit
      have hsplit' : actions = before ++ ([action] ++ after) := by rw [hsplit, List.append_assoc]
      have hspares := (h.1 _ _ hsplit).2
      rw [run_concat] at hspares ⊢
      exact nodup_of_spares (reaches_step _ action) (ih _ hsplit') (numbered_run before) hspares

theorem mem_calls_of_ends {action : DiscoveryAction} (h : d.Ends call action) : call ∈ d.calls := by
  unfold Ends at h
  split at h
  · exact mem_calls d _ call h.choose_spec
  · exact mem_calls d _ call h.choose_spec
  · exact h.elim

theorem returns_of_ends {action : HandlerInput × DiscoveryAction} (hlive : d.terminated = false)
    (h : d.Ends call action.2) :
    (∃ k, action.2 = .waitReturns k) ∧ d.Returns env node action call (call.outcome d.client) ∨
      d.Returns env node action call call.sendFailed := by
  obtain ⟨input, action⟩ := action
  dsimp only [Ends] at h
  split at h
  · exact .inr (returns_sendFailed hlive h.choose_spec input)
  · exact .inl ⟨⟨_, rfl⟩, returns_outcome hlive h.choose_spec input⟩
  · exact h.elim

theorem sendFailed_ne {events : List Event} {reply : Reply} (h : reply ∈ replies env.toDiscv4Primitives call events) :
    call.sendFailed ≠ .ok reply := by
  obtain ⟨event, -, hevent⟩ := List.mem_filterMap.mp h
  cases event with
  | received t data sender =>
      obtain ⟨-, ⟨hkind, -⟩ | ⟨hkind, -⟩⟩ := replyIn_eq_some_iff.mp hevent <;> simp [Call.sendFailed, hkind]
  | _ => cases hevent

theorem usable_of_outcome {c : Discv4Client} {pong : Discv4Pong} (h : call.outcome c = .ok (.pong pong)) :
    pong.expiration ≠ 0 := by
  unfold Call.outcome at h
  split at h
  · split at h
    · cases h
    · split_ifs at h with hzero
      cases h
      exact hzero
  · split at h
    · cases h
    · split_ifs at h
      cases h
  · cases h

theorem oneReply_of_kept {actions : List (HandlerInput × DiscoveryAction)} (h : RepliesKept env node config actions) :
    OneReply env node config actions := by
  intro before during action rest hsplit d call hcall hlive hends reply hreply
  have hreturns := h.2 before during action rest hsplit call hcall hlive hends
  rcases @returns_of_ends env node _ _ _ hlive hends with ⟨hwait, houtcome⟩ | hfailed
  · refine ⟨hwait, ?_, fun other hother => Except.ok.inj ((hreturns other hother).eq (hreturns reply hreply))⟩
    rintro pong rfl
    exact usable_of_outcome (houtcome.eq (hreturns _ hreply))
  · exact absurd (hfailed.eq (hreturns reply hreply)) (sendFailed_ne hreply)

theorem kept_of_oneReply {actions : List (HandlerInput × DiscoveryAction)}
    (hoverlap : NoOverlap env node config actions)
    (hone : OneReply env node config actions) : RepliesKept env node config actions := by
  refine ⟨fun before after hsplit => ⟨?_, spares_of_awaits (awaits_of_noOverlap hoverlap before after hsplit)⟩, ?_⟩
  · intro input data sender rest hafter hlistens call hcall hreply
    obtain ⟨start, hawaits⟩ := awaits_of_noOverlap hoverlap before after hsplit call hcall
    obtain ⟨reply, hreply⟩ := Option.isSome_iff_exists.mp hreply
    rw [step_receive hlistens]
    exact (slot_of_replyIn input (hawaits.entry_of_running hlistens.1) hreply).2
  · intro before during action rest hsplit d call hcall hlive hends reply hreply
    obtain ⟨⟨k, hwait⟩, hpong, hsame⟩ := hone before during action rest hsplit call hcall hlive hends reply hreply
    have hsplit' (waited : List (HandlerInput × DiscoveryAction)) (hwaited : waited <+: during) :
        ∃ after, actions = before ++ waited ++ after := by
      obtain ⟨more, rfl⟩ := hwaited
      exact ⟨more ++ action :: rest, by simp [hsplit]⟩
    obtain ⟨start, hawaits⟩ := awaits_of_noOverlap hoverlap before (during ++ action :: rest)
      (by simp [hsplit]) call hcall
    have halone : StaysAlone env node config call before during := fun waited hwaited hcall =>
      alone_of_nodup (hoverlap _ _ (hsplit' waited hwaited).choose_spec) hcall
    obtain ⟨events, htrace, hslot⟩ := (hawaits.rebase.run halone (mem_calls_of_ends hends)).slot
    have hevents : d.trace.drop (run env node config before).trace.length = events := by
      rw [show d.trace = _ from htrace, List.drop_left]
    rw [hevents] at hreply hsame
    -- the last of its replies is the one
    obtain ⟨last, hlast⟩ := Option.isSome_iff_exists.mp (List.getLast?_isSome.mpr (List.ne_nil_of_mem hreply))
    obtain rfl := hsame last (List.mem_of_getLast? hlast)
    rw [lastReply, hlast, Option.some_or] at hslot
    have houtcome := outcome_of_slot hslot
    rw [if_pos (usable_of_mem_replies hreply hpong)] at houtcome
    obtain ⟨input, _⟩ := action
    obtain rfl := hwait
    exact houtcome ▸ returns_outcome hlive hends.choose_spec input

/-- **Replies are not stolen.** Along any run of the client, each reply that arrives for a call that waits ends its wait
and is what the call returns when it ends, and the end of a call never removes the entry of another one, exactly if
calls that wait at the same time wait for replies from different endpoints or of different types, and a call that has
received a reply is not ended by a failed send, receives no other reply, and no PONG with the expiration zero. -/
theorem replies_kept_iff (env : RequestPrimitives) (node : LocalNode) (config : Discv4Config)
    (actions : List (HandlerInput × DiscoveryAction)) :
    RepliesKept env node config actions ↔ NoOverlap env node config actions ∧ OneReply env node config actions :=
  ⟨fun h => ⟨noOverlap_of_kept h, oneReply_of_kept h⟩, fun h => kept_of_oneReply h.1 h.2⟩

/-! ## Two PINGs to one endpoint -/

/-- The third-party functions, with the last bytes of a message for its hash. -/
def tailEnv : RequestPrimitives := { requestEnv with keccak256 := fun message => .load 32 message.reverse }

/-- The call of a PING to `samplePeer`. -/
def samplePing (unixTime id : Nat) : Call where
  kind := .ping
  ip := tailEnv.addressToString samplePeer.address
  port := samplePeer.port
  id := id
  packet := (requestPacket tailEnv sampleNode sampleConfig ⟨unixTime, fun _ => 0⟩ .ping
    (tailEnv.addressToString samplePeer.address) samplePeer.port).toOption.getD []

def samplePong (call : Call) : Bytes :=
  List.replicate (kWireHashSize + kWireSigSize) 0 ++
    pongPayload samplePeer.address samplePeer.port 30303 call.sentHash 60

/-- Two PINGs to one endpoint within two seconds, both sent: the PONG for the first one arrives and is dropped, the
first call returns an error, and it removes the entry of the second one. -/
theorem second_ping_loses_reply :
    let first := samplePing 0 0
    let second := samplePing 1 1
    let sent : List (HandlerInput × DiscoveryAction) :=
      [(⟨0, fun _ => 0⟩, .ping first.ip first.port), (⟨1, fun _ => 0⟩, .ping second.ip second.port),
        (⟨1, fun _ => 0⟩, .sendReturns 0 true), (⟨1, fun _ => 0⟩, .sendReturns 1 true)]
    let d := run tailEnv sampleNode sampleConfig (sent ++ [(⟨1, fun _ => 0⟩, .receive (samplePong first) samplePeer)])
    let d' := d.step tailEnv sampleNode (⟨1, fun _ => 0⟩, .waitReturns 0)
    (run tailEnv sampleNode sampleConfig sent).calls = [first, second] ∧
      first.replyIn tailEnv.toDiscv4Primitives (samplePong first) samplePeer =
        some (.pong ⟨samplePeer.address, samplePeer.port, 30303, first.sentHash, 60, 0⟩) ∧
      d.client.cancelled = [] ∧ d'.trace = d.trace ++ [.returned (some 0) (.error .kPongTimeout)] ∧
      d.client.pendingReplies.lookup second.key = some second.entry ∧
      d'.client.pendingReplies.lookup second.key = none := by
  decide +kernel

end Discovery

end DevP2P.Discv4
