import DevP2P.Discv5.SessionTable

/-!
# How long a session lasts

A session is kept while packets come in and tasks run, in any order; a request changes the id that it waits for. What
ends it is a handshake from its endpoint that has passed the checks, by which it is replaced or erased.

* `Kept` : the session is there, up to the id of its last request;
* `kept_runTask`, `kept_or_shakes` : what a task and a packet do to it;
* `session_ends_by_handshake` : what a session that is gone or has other keys was ended by.
-/

namespace DevP2P.Discv5
open DevP2P.Lib DevP2P.Rlp

/-- The session `session` is the one under `key`, up to the id of its last request. -/
def Kept (key : Bytes) (session : SessionState) (c : Discv5Client) : Prop :=
  ∃ reqId, c.sessions.lookup key = some { session with lastReqId := reqId }

/-- The packet is a handshake from the endpoint of `key`, and passes the checks. -/
def Shakes (env : ClientPrimitives) (key : Bytes) (c : Discv5Client) (data : Bytes) (sender : Endpoint)
    (packet : PacketView) : Prop :=
  endpointKey env sender = key ∧ decodePacket env data (deriveNodeAddress env c.config.publicKey) = .ok packet ∧
    packet.flag = kFlagHandshake ∧ PassesChecks env packet key c

section

variable {env : ClientPrimitives} {key : Bytes} {session : SessionState} {c c' : Discv5Client} {a : ClientAction}
  {actions : List ClientAction}

theorem kept_of_insert {key' : Bytes} {session' : SessionState} (hne : key ≠ key')
    (h : c.sessions.lookup key = some session)
    (hc' : c'.sessions = c.sessions.insert key' session') : Kept key session c' := by
  refine ⟨session.lastReqId, ?_⟩
  rw [hc', Finmap.lookup_insert_of_ne _ hne]
  exact h

theorem kept_runTask {index : Nat} {input : TaskInput} (h : c.sessions.lookup key = some session)
    (hstep : c.step env (.runTask index input) = some c') : Kept key session c' := by
  -- no task has the events of a handshake that comes in
  have hsingle {key'} : c.events env (.runTask index input) ≠ [.started key'] := by
    intro hevents
    cases htask : c.tasks[index]? with
    | none => simp [Discv5Client.events, htask] at hevents
    | some task =>
        simp only [Discv5Client.events, htask] at hevents
        have hsend (peer : ValidatedPeer) : sendEvents env input peer { c with tasks := c.tasks.eraseIdx index } ≠
          [.started key'] := by
          rcases @sendFindnode_cases env input peer { c with tasks := c.tasks.eraseIdx index } with
            ⟨h, -⟩ | ⟨_, -, h, -⟩ | ⟨_, _, -, -, -, -, h, -⟩ <;> rw [h] <;> simp
        cases task with
        | query peer => exact hsend peer hevents
        | retry peer => exact hsend peer hevents
        | sendWhoareyou sender remoteNodeAddr requestNonce => cases hevents
        | handleFindnodeRequest reqId sender => cases hevents
  cases sessionStep_of_step hstep with
  | quiet hevents hframe => exact ⟨_, hframe.sessions ▸ h⟩
  | nodes hlookup hid hevents hframe => exact ⟨_, hframe.sessions ▸ h⟩
  | accepted haccept hevents hframe => exact absurd hevents hsingle
  | dropped haccept hevents hframe => exact absurd hevents hsingle
  | @request key' reqId session' taken hlookup hid hevents hframe =>
      by_cases hk : key = key'
      · subst hk
        obtain rfl : session' = session := Option.some.inj (hlookup.symm.trans h)
        refine ⟨reqId, ?_⟩
        rw [hframe.sessions, Finmap.lookup_insert]
      · exact kept_of_insert hk h hframe.sessions
  | @handshake index' input' task peer pending handshake taken haction htask hsends hlookup hpending hchallenge hmade
    hevents hframe =>
      by_cases hk : key = endpointKeyOf peer.ip peer.udpPort
      · rw [← hk, h] at hlookup
        cases hlookup
      · exact kept_of_insert hk h hframe.sessions

theorem kept_or_shakes {data : Bytes} {sender : Endpoint} (h : c.sessions.lookup key = some session)
    (hrun : handlePacket env data sender c = some c') :
    Kept key session c' ∨ ∃ packet, Shakes env key c data sender packet := by
  rcases handlePacket_cases hrun with ⟨-, hframe⟩ | ⟨session', nodes, hlookup, hid, hevents, hframe⟩ |
    ⟨packet, session', hdecode, hflag, haccept, hevents, hsessions⟩
  · exact .inl ⟨_, hframe.sessions ▸ h⟩
  · exact .inl ⟨_, hframe.sessions ▸ h⟩
  · by_cases hk : endpointKey env sender = key
    · exact .inr ⟨packet, hk, hdecode, hflag, session', hk ▸ haccept⟩
    · left
      rcases hsessions with hframe | ⟨reqId, hframe⟩
      · refine ⟨session.lastReqId, ?_⟩
        rw [hframe.sessions, Finmap.lookup_erase_ne (Ne.symm hk), Finmap.lookup_insert_of_ne _ (Ne.symm hk)]
        exact h
      · exact kept_of_insert (Ne.symm hk) h hframe.sessions

theorem kept_or_shakes_of_step (h : c.sessions.lookup key = some session) (hstep : c.step env a = some c') :
    Kept key session c' ∨ ∃ data sender packet, a = .receive data sender ∧ Shakes env key c data sender packet := by
  cases a with
  | receive data sender =>
      exact (kept_or_shakes h hstep).imp id fun ⟨packet, hshakes⟩ => ⟨data, sender, packet, rfl, hshakes⟩
  | spawnQuery peer =>
      obtain rfl := Option.some.inj hstep
      exact .inl ⟨_, h⟩
  | runTask index input => exact .inl (kept_runTask h hstep)

end

/-- **A session ends by a handshake from its own endpoint.** If after a run, whatever came in and in whichever order the
tasks were run, the session under `key` is gone, or has other keys or another node, then a handshake packet had come in
from that endpoint and had passed every check: it answered a challenge of the client, with a record and an identity
proof that verified. -/
theorem session_ends_by_handshake {env : ClientPrimitives} {key : Bytes} {session : SessionState} {c c' : Discv5Client}
    {actions : List ClientAction} (h : c.sessions.lookup key = some session) (hafter : c.after env actions = some c')
    (hended : ∀ reqId, c'.sessions.lookup key ≠ some { session with lastReqId := reqId }) :
    ∃ before data sender later d packet, actions = before ++ .receive data sender :: later ∧
      c.after env before = some d ∧
      endpointKey env sender = key ∧ decodePacket env data (deriveNodeAddress env d.config.publicKey) = .ok packet ∧
      packet.flag = kFlagHandshake ∧ PassesChecks env packet key d := by
  have hrun : Kept key session c' ∨ ∃ before data sender later d packet,
      actions = before ++ .receive data sender :: later ∧
      c.after env before = some d ∧ Shakes env key d data sender packet := by
    clear hended
    induction actions using List.reverseRecOn generalizing c' with
    | nil =>
        obtain rfl := Option.some.inj hafter
        exact .inl ⟨_, h⟩
    | append_singleton actions a ih =>
        rw [Discv5Client.after_concat] at hafter
        obtain ⟨d, hd, hstep⟩ := Option.bind_eq_some_iff.mp hafter
        rcases ih hd with ⟨reqId, hlookup⟩ | ⟨before, data, sender, later, e, packet, rfl, he, hshakes⟩
        · rcases kept_or_shakes_of_step hlookup hstep with hkept | ⟨data, sender, packet, rfl, hshakes⟩
          · exact .inl hkept
          · exact .inr ⟨actions, data, sender, [], d, packet, rfl, hd, hshakes⟩
        · exact .inr ⟨before, data, sender, later ++ [a], e, packet, by simp, he, hshakes⟩
  obtain ⟨reqId, hlookup⟩ | hshaken := hrun
  · exact absurd hlookup (hended reqId)
  · exact hshaken

/-- The handshake has no message, and the session is erased. -/
theorem session_ends_by_handshake_challengingClient :
    ∃ before data sender later d packet,
      [ClientAction.spawnQuery (plainPeer 1), .receive (plainPacket kFlagHandshake plainHandshakeAuth []) plainEndpoint]
        = before ++ .receive data sender :: later ∧
      challengingClient.after plainEnv before = some d ∧
      endpointKey plainEnv sender = endpointKey plainEnv plainEndpoint ∧
      decodePacket plainEnv data (deriveNodeAddress plainEnv d.config.publicKey) = .ok packet ∧
      packet.flag = kFlagHandshake ∧ PassesChecks plainEnv packet (endpointKey plainEnv plainEndpoint) d := by
  have hrun : (challengingClient.after plainEnv
      [.spawnQuery (plainPeer 1), .receive (plainPacket kFlagHandshake plainHandshakeAuth []) plainEndpoint]).map
        (fun c' => c'.sessions.lookup (endpointKey plainEnv plainEndpoint)) = some none := by decide +kernel
  obtain ⟨session, hsession⟩ := Option.isSome_iff_exists.mp
    (show (challengingClient.sessions.lookup (endpointKey plainEnv plainEndpoint)).isSome = true by decide +kernel)
  obtain ⟨c', hc', hlost⟩ := Option.map_eq_some_iff.mp hrun
  exact session_ends_by_handshake hsession hc' fun reqId => by simp [hlost]

end DevP2P.Discv5
