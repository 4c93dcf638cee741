import DevP2P.Discv5.SessionTable

/-!
# Which NODES messages are ingested

`handle_packet` compares the id of a NODES message with the one that the session keeps. `send_findnode` keeps the id of
its request there before the socket has taken it; an inbound handshake leaves no id there, or the one that the other end
has chosen.

* `requestsOn key events` : the requests made on the session under `key` since it was started;
* `OnlySolicited` : every NODES message that is ingested answers one of these requests, and one that has gone out;
* `only_solicited_iff` : this is so when, at each of them, the client has made a request on the session and the id of
  the latest one is that of a request which has gone out.
-/

namespace DevP2P.Discv5
open DevP2P.Lib DevP2P.Rlp

/-! ## Requests -/

/-- The requests on the session under `key`, after one more event. -/
def noteRequest (key : Bytes) (requests : List (Bytes × Bool)) : ClientEvent → List (Bytes × Bool)
  | .started key' => if key' = key then [] else requests
  | .requested key' reqId taken => if key' = key then requests ++ [(reqId, taken)] else requests
  | .ingested _ _ _ => requests

/-- The ids of the requests that were made on the session under `key` since it was started, and whether the socket has
taken them. -/
def requestsOn (key : Bytes) (events : List ClientEvent) : List (Bytes × Bool) := events.foldl (noteRequest key) []

/-- Every NODES message that is ingested has the id of a request that has gone out on its session. -/
def OnlySolicited (events : List ClientEvent) : Prop :=
  ∀ pre post key reqId peers, events = pre ++ .ingested key reqId peers :: post → (reqId, true) ∈ requestsOn key pre

/-- Whenever a NODES message is ingested, the latest request on its session, or an earlier one with the same id, has
gone out. -/
def LatestWentOut (events : List ClientEvent) : Prop :=
  ∀ pre post key reqId peers, events = pre ++ .ingested key reqId peers :: post →
    ∃ latest, (requestsOn key pre).getLast? = some latest ∧ (latest.1, true) ∈ requestsOn key pre

theorem requestsOn_append (key : Bytes) (events events' : List ClientEvent) :
    requestsOn key (events ++ events') = events'.foldl (noteRequest key) (requestsOn key events) :=
  List.foldl_append

theorem requestsOn_started (key : Bytes) (events : List ClientEvent) :
    requestsOn key (events ++ [.started key]) = [] := by
  rw [requestsOn_append]
  exact if_pos rfl

theorem requestsOn_requested (key reqId : Bytes) (taken : Bool) (events : List ClientEvent) :
    requestsOn key (events ++ [.requested key reqId taken]) = requestsOn key events ++ [(reqId, taken)] := by
  rw [requestsOn_append]
  exact if_pos rfl

theorem requestsOn_started_requested (key reqId : Bytes) (taken : Bool) (events : List ClientEvent) :
    requestsOn key (events ++ [.started key, .requested key reqId taken]) = [(reqId, taken)] := by
  rw [show events ++ [.started key, .requested key reqId taken] = (events ++ [.started key]) ++
    [.requested key reqId taken] by simp,
    requestsOn_requested, requestsOn_started, List.nil_append]

def ClientEvent.key : ClientEvent → Bytes
  | .started key => key
  | .requested key _ _ => key
  | .ingested key _ _ => key

theorem requestsOn_of_ne {key : Bytes} {events events' : List ClientEvent} (h : ∀ e ∈ events', e.key ≠ key) :
    requestsOn key (events ++ events') = requestsOn key events := by
  rw [requestsOn_append]
  induction events' using List.reverseRecOn with
  | nil => rfl
  | append_singleton es e ih =>
      rw [List.foldl_append, ih fun e' he' => h e' (List.mem_append_left _ he')]
      have hne := h e (List.mem_append_right es (List.mem_singleton_self e))
      cases e with
      | started key' => exact if_neg hne
      | requested key' reqId taken => exact if_neg hne
      | ingested key' reqId peers => rfl

/-! ## The id that a session keeps -/

/-- The requests have ids, and a session keeps the id of the latest request that was made on it. -/
structure Accounts (c : Discv5Client) (events : List ClientEvent) : Prop where
  haveIds : HaveIds c
  ids : ∀ key, ∀ request ∈ requestsOn key events, request.1 ≠ []
  latest : ∀ key session latest, c.sessions.lookup key = some session → (requestsOn key events).getLast? = some latest →
    session.lastReqId = latest.1

theorem accounts_new (config : Discv5Config) (boundPort : Option UInt16) (crawler : Crawler) :
    Accounts (.new config boundPort crawler) [] := by
  refine ⟨?_, ?_, ?_⟩
  · intro key pending hlookup
    rw [Discv5Client.new, Finmap.lookup_empty] at hlookup
    cases hlookup
  · intro key request hmem
    cases hmem
  · intro key session latest hlookup
    rw [Discv5Client.new, Finmap.lookup_empty] at hlookup
    cases hlookup

section Steps

variable {env : ClientPrimitives} {c c' : Discv5Client} {events events' : List ClientEvent} {a : ClientAction}

theorem Accounts.at_key (h : Accounts c events) {t : Table SessionState} (hframe : SessionFrame c t c') (key : Bytes)
    (hkey : ∀ e ∈ events', e.key = key) (hlookup : ∀ key' ≠ key, t.lookup key' = c.sessions.lookup key')
    (hids : ∀ request ∈ requestsOn key (events ++ events'), request.1 ≠ [])
    (hlatest : ∀ session latest, t.lookup key = some session →
      (requestsOn key (events ++ events')).getLast? = some latest →
      session.lastReqId = latest.1) : Accounts c' (events ++ events') := by
  have hother {key' : Bytes} (hk : key' ≠ key) : requestsOn key' (events ++ events') = requestsOn key' events :=
    requestsOn_of_ne fun e he => (hkey e he).trans_ne (Ne.symm hk)
  refine ⟨hframe.haveIds h.haveIds, ?_, ?_⟩
  · intro key' request hmem
    by_cases hk : key' = key
    · subst hk
      exact hids request hmem
    · rw [hother hk] at hmem
      exact h.ids key' request hmem
  · intro key' session latest hsession hlast
    rw [hframe.sessions] at hsession
    by_cases hk : key' = key
    · subst hk
      exact hlatest session latest hsession hlast
    · rw [hother hk] at hlast
      rw [hlookup key' hk] at hsession
      exact h.latest key' session latest hsession hlast

theorem Accounts.started (h : Accounts c events) {t : Table SessionState} (hframe : SessionFrame c t c') (key : Bytes)
    (hlookup : ∀ key' ≠ key, t.lookup key' = c.sessions.lookup key') : Accounts c' (events ++ [.started key]) := by
  refine h.at_key hframe key (by simp [ClientEvent.key]) hlookup ?_ ?_
  · rw [requestsOn_started]
    exact nofun
  · intro session latest hsession hlast
    rw [requestsOn_started] at hlast
    cases hlast

theorem Accounts.requested (h : Accounts c events) {key reqId : Bytes} {taken : Bool} {session : SessionState}
    {requests : List (Bytes × Bool)} (hframe : SessionFrame c (c.sessions.insert key session) c')
    (hkey : ∀ e ∈ events', e.key = key) (hrequests : requestsOn key (events ++ events') = requests ++ [(reqId, taken)])
    (hids : ∀ request ∈ requests, request.1 ≠ []) (hid : reqId ≠ []) (hkept : session.lastReqId = reqId) :
    Accounts c' (events ++ events') := by
  refine h.at_key hframe key hkey (fun key' hk => Finmap.lookup_insert_of_ne _ hk) ?_ ?_
  · rw [hrequests]
    intro request hmem
    rcases List.mem_append.mp hmem with hmem | hmem
    · exact hids request hmem
    · rw [List.mem_singleton.mp hmem]
      exact hid
  · intro session' latest hsession hlast
    rw [Finmap.lookup_insert] at hsession
    rw [hrequests, List.getLast?_concat] at hlast
    rw [← Option.some.inj hsession, ← Option.some.inj hlast]
    exact hkept

/-- **The accounts are kept by every step.** -/
theorem Accounts.step (h : Accounts c events) (hstep : c.step env a = some c') :
    Accounts c' (events ++ c.events env a) := by
  cases sessionStep_of_step hstep with
  | quiet hevents hframe =>
      rw [hevents, List.append_nil]
      refine ⟨hframe.haveIds h.haveIds, h.ids, fun key session latest hlookup => ?_⟩
      rw [hframe.sessions] at hlookup
      exact h.latest key session latest hlookup
  | @request key reqId session taken hlookup hid hevents hframe =>
      rw [hevents]
      exact h.requested hframe (by simp [ClientEvent.key]) (requestsOn_requested key reqId taken events)
        (h.ids key) hid rfl
  | @handshake index input task peer pending handshake taken haction htask hsends hlookup hpending hchallenge hmade
    hevents hframe =>
      have hrequests := requestsOn_started_requested (endpointKeyOf peer.ip peer.udpPort) pending.reqId taken events
      rw [← List.nil_append [(pending.reqId, taken)]] at hrequests
      rw [hevents]
      exact h.requested hframe (by simp [ClientEvent.key]) hrequests nofun (h.haveIds _ pending hpending)
        (lastReqId_makeHandshake hmade)
  | @nodes key session nodes hlookup hid hevents hframe =>
      rw [hevents]
      refine h.at_key hframe key (by simp [ClientEvent.key]) (fun key' hk => rfl) ?_ ?_
      · rw [requestsOn_append]
        exact h.ids key
      · intro session' latest hsession hlast
        rw [requestsOn_append] at hlast
        exact h.latest key session' latest hsession hlast
  | @accepted packet key reqId session haccept hevents hframe =>
      rw [hevents]
      exact h.started hframe key fun key' hk => Finmap.lookup_insert_of_ne _ hk
  | @dropped packet key session haccept hevents hframe =>
      rw [hevents]
      refine h.started hframe key fun key' hk => ?_
      rw [Finmap.lookup_erase_ne hk, Finmap.lookup_insert_of_ne _ hk]

end Steps

/-! ## Runs -/

variable {env : ClientPrimitives} {config : Discv5Config} {boundPort : Option UInt16} {crawler : Crawler}

theorem accounts_after {actions : List ClientAction} {c : Discv5Client}
    (h : (Discv5Client.new config boundPort crawler).after env actions = some c) :
    Accounts c ((Discv5Client.new config boundPort crawler).trace env actions) := by
  induction actions using List.reverseRecOn generalizing c with
  | nil =>
      obtain rfl := Option.some.inj h
      exact accounts_new config boundPort crawler
  | append_singleton actions a ih =>
      rw [Discv5Client.after_concat] at h
      obtain ⟨d, hafter, hstep⟩ := Option.bind_eq_some_iff.mp h
      rw [Discv5Client.trace_concat_of_step hafter hstep]
      exact (ih hafter).step hstep

theorem ingested_of_events {c c' : Discv5Client} {a : ClientAction} {pre post : List ClientEvent} {key reqId : Bytes}
    {peers : List ValidatedPeer} (hstep : c.step env a = some c')
    (hevents : c.events env a = pre ++ .ingested key reqId peers :: post) :
    pre = [] ∧ ∃ session, c.sessions.lookup key = some session ∧
      (session.lastReqId = [] ∨ reqId = session.lastReqId) := by
  have hmem : ClientEvent.ingested key reqId peers ∈ c.events env a := by
    rw [hevents]
    exact List.mem_append_right pre List.mem_cons_self
  cases sessionStep_of_step hstep with
  | quiet hnone => simp [hnone] at hmem
  | request hlookup hid hone => simp [hone] at hmem
  | handshake haction htask hsends hlookup hpending hchallenge hmade htwo => simp [htwo] at hmem
  | @nodes key' session nodes hlookup hid hone =>
      rw [hone, List.singleton_eq_append_iff] at hevents
      rcases hevents with ⟨hpre, hcons⟩ | ⟨-, hcons⟩
      · simp only [List.cons.injEq, ClientEvent.ingested.injEq] at hcons
        obtain ⟨⟨rfl, rfl, rfl⟩, -⟩ := hcons
        exact ⟨hpre, session, hlookup, hid⟩
      · cases hcons
  | accepted haccept hone => simp [hone] at hmem
  | dropped haccept hone => simp [hone] at hmem

/-- When a NODES message is ingested the client has a session under the sender's key, which keeps no id or that of the
message. -/
theorem exists_session_of_ingested {actions : List ClientAction} {pre post : List ClientEvent} {key reqId : Bytes}
    {peers : List ValidatedPeer}
    (h : (Discv5Client.new config boundPort crawler).trace env actions = pre ++ .ingested key reqId peers :: post) :
    ∃ c session, Accounts c pre ∧ c.sessions.lookup key = some session ∧
      (session.lastReqId = [] ∨ reqId = session.lastReqId) := by
  induction actions using List.reverseRecOn generalizing post with
  | nil => exact absurd h (by simp [Discv5Client.trace, runEffects])
  | append_singleton actions a ih =>
      rcases Discv5Client.trace_concat env (.new config boundPort crawler) actions a with hsame | ⟨d, d', hafter, hstep⟩
      · exact ih (hsame.symm.trans h)
      rw [Discv5Client.trace_concat_of_step hafter hstep] at h
      have hlast {pre' : List ClientEvent} (hevents : d.events env a = pre' ++ .ingested key reqId peers :: post)
          (hpre : pre = (Discv5Client.new config boundPort crawler).trace env actions ++ pre') :
          ∃ c session, Accounts c pre ∧ c.sessions.lookup key = some session ∧
            (session.lastReqId = [] ∨ reqId = session.lastReqId) := by
        obtain ⟨rfl, session, hlookup, hid⟩ := ingested_of_events hstep hevents
        rw [hpre, List.append_nil]
        exact ⟨d, session, accounts_after hafter, hlookup, hid⟩
      rcases List.append_eq_append_iff.mp h with ⟨rest, hpre, hevents⟩ | ⟨rest, htrace, hcons⟩
      · exact hlast hevents hpre
      cases rest with
      | nil =>
          rw [List.append_nil] at htrace
          exact hlast (show d.events env a = [] ++ .ingested key reqId peers :: post from hcons.symm)
            (by rw [htrace, List.append_nil])
      | cons e rest =>
          obtain ⟨rfl, -⟩ := List.cons.inj hcons
          exact ih htrace

theorem reqId_eq_of_latest {actions : List ClientAction} {pre post : List ClientEvent} {key reqId : Bytes}
    {peers : List ValidatedPeer} {latest : Bytes × Bool}
    (h : (Discv5Client.new config boundPort crawler).trace env actions = pre ++ .ingested key reqId peers :: post)
    (hlatest : (requestsOn key pre).getLast? = some latest) : reqId = latest.1 := by
  obtain ⟨c, session, haccounts, hlookup, hid⟩ := exists_session_of_ingested h
  have hkept := haccounts.latest key session latest hlookup hlatest
  rcases hid with hempty | hsame
  · exact absurd (hkept.symm.trans hempty) (haccounts.ids key latest (List.mem_of_getLast? hlatest))
  · exact hsame.trans hkept

/-- **Every ingested NODES message is solicited exactly in the runs in which, at each of them, the client has made a
request on the session and the id of the latest one is that of a request that has gone out.** -/
theorem only_solicited_iff (env : ClientPrimitives) (config : Discv5Config) (boundPort : Option UInt16)
    (crawler : Crawler)
    (actions : List ClientAction) :
    OnlySolicited ((Discv5Client.new config boundPort crawler).trace env actions) ↔
      LatestWentOut ((Discv5Client.new config boundPort crawler).trace env actions) := by
  constructor
  · intro h pre post key reqId peers htrace
    have hmem := h pre post key reqId peers htrace
    obtain ⟨latest, hlatest⟩ := Option.ne_none_iff_exists'.mp fun hnone =>
      List.ne_nil_of_mem hmem (List.getLast?_eq_none_iff.mp hnone)
    rw [reqId_eq_of_latest htrace hlatest] at hmem
    exact ⟨latest, hlatest, hmem⟩
  · intro h pre post key reqId peers htrace
    obtain ⟨latest, hlatest, hmem⟩ := h pre post key reqId peers htrace
    rw [reqId_eq_of_latest htrace hlatest]
    exact hmem

/-! ## A session on which nothing was asked -/

/-- A node that the client has never asked for one: it sends a message that cannot be read, answers the challenge it
gets with a handshake, and then sends its own record in a NODES message. -/
def unsolicitedRun : List ClientAction :=
  [.receive (plainPacket kFlagMessage (List.replicate 32 7) []) plainEndpoint, .runTask 0 plainInput,
    .receive (plainPacket kFlagHandshake plainHandshakeAuth (List.replicate 16 0)) plainEndpoint,
    .receive (plainPacket kFlagMessage (List.replicate 32 7) (kMsgNodes ::
      (Item.list [.string [170], .string [1], .list
        [.list [.string (List.replicate 64 1), .string [1], .string kEnrKeyIp,
        .string [10, 0, 0, 7], .string kEnrKeySecp256k1, .string plainKey, .string kEnrKeyUdp, .string [1]]]]).encode
          ++ List.replicate 16 0)) plainEndpoint]

/-- **Peers are ingested from a node that was never asked.** -/
theorem unsolicited_nodes_ingested : ∃ key reqId peer,
    plainClient.trace plainEnv unsolicitedRun = [.started key, .ingested key reqId [peer]] ∧
    ¬ OnlySolicited (plainClient.trace plainEnv unsolicitedRun) := by
  have htrace : plainClient.trace plainEnv unsolicitedRun = [.started (endpointKey plainEnv plainEndpoint),
    .ingested (endpointKey plainEnv plainEndpoint) [170]
    [⟨.load _ (List.replicate 32 7), [10, 0, 0, 7], 1, 30303, none⟩]] := by
    decide +kernel
  refine ⟨_, _, _, htrace, ?_⟩
  intro h
  have hmem := h [_] [] _ _ _ htrace
  rw [show [ClientEvent.started _] = [] ++ [ClientEvent.started _] from rfl, requestsOn_started] at hmem
  cases hmem

end DevP2P.Discv5
