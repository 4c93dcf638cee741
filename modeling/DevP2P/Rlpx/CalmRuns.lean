import DevP2P.Rlpx.Delivery

/-!
# Runs in which nothing fails

The connection holds, nobody calls `disconnect`, and every message fits a frame.

* `Calm` : such an action; `Healthy` : what holds of an end in such a run;
* `Reader.ahead` : what has arrived at an end and what is on the way are the frames that it has not read;
* `Healthy.step` : one step, `working_run` : a run;
* `calm_runs_lose_nothing` : the sessions stay active, and every message that was posted was received, is in a channel
  or is on the way.
-/

namespace DevP2P.Rlpx
open DevP2P.Lib DevP2P.Rlp RlpxSession

/-! ## The actions -/

def Message.Fits (codec : SnappyCodec) (message : Message) : Prop := (frameData codec message).length < 2 ^ 24

theorem Message.Fits.sizeFits {codec : SnappyCodec} {message : Message} (h : message.Fits codec) :
    SizeFits (frameData codec message) :=
  ⟨List.length_pos_iff.mpr (messageData_ne_nil _ _), h⟩

def SessionUse.Calm (codec : SnappyCodec) : SessionUse → Prop
  | .call _ (.post message) => message.Fits codec
  | .call _ .receive => True
  | .finish _ => True
  | .disconnect _ _ => False
  | .send timerOk => timerOk = true
  | .receive => True

def EndAction.Calm (codec : SnappyCodec) : EndAction → Prop
  | .connect => True
  | .use usage => usage.Calm codec
  | .cut _ _ => False
  | .breakWrites _ _ => False

def ConnectionAction.Calm (codec : SnappyCodec) : ConnectionAction → Prop
  | .act _ action => action.Calm codec
  | .arrive _ _ => True

/-- What `connect` needs of the Hellos. -/
structure Welcome (codec : SnappyCodec) (hello : Role → HelloMessage) : Prop extends Greetable hello where
  fits : ∀ who, (helloData codec (hello who)).length < 2 ^ 24

/-! ## One end -/

/-- Nothing has failed at an end. -/
structure Healthy (codec : SnappyCodec) (s : RlpxSession) (es : List SessionEvent) : Prop where
  point : ∀ e, s.point ≠ .failed e
  ended : s.ended = false
  unlimited : s.stream.transport.writeLimit = none
  active : s.point = .opened → s.control.state = .kActive
  loops : ∀ l, s.control.loops l ≠ .exited
  sending : s.sendPoint ≠ .popping → s.control.loops .send = .body
  receiving : s.receivePoint ≠ .reading → s.control.loops .receive = .body
  calls : ∀ i message, s.calls i = some (.post message) → message.Fits codec
  posted : ∀ message ∈ postedIn es, message.Fits codec

namespace Session

variable {s : Session} {l : SessionLoop}

theorem advance_true (hactive : s.state = .kActive) (hloop : s.loops l ≠ .exited) :
    s.advance l true = s.moveLoop l (if s.loops l = .check then .body else .check) := by
  show (s.stepLoop l true (s.loops l)).1 = _
  cases hl : s.loops l with
  | check =>
      rw [stepLoop, if_pos hactive, if_pos rfl]
  | body => rfl
  | exited => exact absurd hl hloop

theorem loops_advance_true (hactive : s.state = .kActive) (hloops : ∀ k, s.loops k ≠ .exited) (k : SessionLoop) :
    (s.advance l true).loops k ≠ .exited := by
  rw [advance_true hactive (hloops l)]
  by_cases hk : k = l
  · subst hk
    show Function.update s.loops k _ k ≠ .exited
    rw [Function.update_self]
    split_ifs <;> decide
  · show Function.update s.loops l _ k ≠ .exited
    rw [Function.update_of_ne hk]
    exact hloops k

theorem state_advance_true (hactive : s.state = .kActive) (hloop : s.loops l ≠ .exited) :
    (s.advance l true).state = .kActive := by
  rw [advance_true hactive hloop]
  exact hactive

end Session

variable {env : RlpxPrimitives} {codec : SnappyCodec} {hello peerHello : HelloMessage} {start : CipherHalf}
    {s s' : RlpxSession}
  {es evs : List SessionEvent}

namespace Healthy

theorem not_writeOver (h : Healthy codec s es) : ¬ s.WriteOver := not_over h.point (h.loops .send)

theorem not_readOver (h : Healthy codec s es) : ¬ s.ReadOver := not_over h.point (h.loops .receive)

theorem posted_eq (h : Healthy codec s es) (hw : Writer env codec hello start s es) :
    postedIn es = sentIn es ++ (s.taken ++ s.sendChannel) := by
  obtain ⟨rest, hposted, hrest⟩ := hw.queued
  rw [hposted, hrest h.not_writeOver]

theorem sent_fits (h : Healthy codec s es) (hw : Writer env codec hello start s es) :
    ∀ message ∈ sentIn es, message.Fits codec :=
  fun message hmem => h.posted message (h.posted_eq hw ▸ List.mem_append_left _ hmem)

theorem of_eq (h : Healthy codec s es) (hpoint : s'.point = s.point) (hended : s'.ended = s.ended)
    (hlimit : s'.stream.transport.writeLimit = none) (hcontrol : s'.control = s.control)
    (hsending : s'.sendPoint ≠ .popping → s.control.loops .send = .body)
    (hreceiving : s'.receivePoint ≠ .reading → s.control.loops .receive = .body)
    (hcalls : ∀ i message, s'.calls i = some (.post message) → message.Fits codec)
    (hposted : ∀ message ∈ postedIn evs, message.Fits codec) : Healthy codec s' (es ++ evs) := by
  refine ⟨?_, hended.trans h.ended, hlimit, ?_, ?_, ?_, ?_, hcalls, ?_⟩
  · rw [hpoint]
    exact h.point
  · rw [hpoint, hcontrol]
    exact h.active
  · rw [hcontrol]
    exact h.loops
  · rw [hcontrol]
    exact hsending
  · rw [hcontrol]
    exact hreceiving
  · intro message hmem
    rw [postedIn_append] at hmem
    rcases List.mem_append.mp hmem with hold | hnew
    · exact h.posted message hold
    · exact hposted message hnew

theorem advance (h : Healthy codec s es) (hopened : s.point = .opened) {l : SessionLoop} (hpoint : s'.point = s.point)
    (hended : s'.ended = s.ended) (hlimit : s'.stream.transport.writeLimit = none)
    (hcontrol : s'.control = s.control.advance l true)
    (hsending : s'.sendPoint ≠ .popping → s.sendPoint ≠ .popping ∧ l ≠ .send)
    (hreceiving : s'.receivePoint ≠ .reading → s.receivePoint ≠ .reading ∧ l ≠ .receive)
    (hcalls : s'.calls = s.calls) (hposted : postedIn evs = []) : Healthy codec s' (es ++ evs) := by
  have hactive := h.active hopened
  refine ⟨?_, hended.trans h.ended, hlimit, ?_, ?_, ?_, ?_, ?_, ?_⟩
  · rw [hpoint]
    exact h.point
  · rw [hcontrol]
    exact fun _ => Session.state_advance_true hactive (h.loops l)
  · rw [hcontrol]
    exact Session.loops_advance_true hactive h.loops
  · intro hnot
    obtain ⟨hold, hne⟩ := hsending hnot
    rw [hcontrol, s.control.loops_advance_of_ne hne.symm]
    exact h.sending hold
  · intro hnot
    obtain ⟨hold, hne⟩ := hreceiving hnot
    rw [hcontrol, s.control.loops_advance_of_ne hne.symm]
    exact h.receiving hold
  · rw [hcalls]
    exact h.calls
  · rw [postedIn_append, hposted, List.append_nil]
    exact h.posted

/-! ### The calls -/

theorem beginCall (h : Healthy codec s es) (i : Nat) {call : ApiCall} (hcalm : (SessionUse.call i call).Calm codec) :
    Healthy codec (s.beginCall i call).1 (es ++ (s.beginCall i call).2) := by
  unfold RlpxSession.beginCall
  cases s.calls i with
  | some _ => exact h.of_eq rfl rfl h.unlimited rfl h.sending h.receiving h.calls (by simp [postedIn])
  | none =>
      dsimp only
      split_ifs
      · refine h.of_eq rfl rfl h.unlimited rfl h.sending h.receiving ?_ (by simp [postedIn])
        intro k message hcall
        dsimp only at hcall
        by_cases hk : k = i
        · subst hk
          rw [Function.update_self] at hcall
          cases hcall
          exact hcalm
        · rw [Function.update_of_ne hk] at hcall
          exact h.calls k message hcall
      · exact h.of_eq rfl rfl h.unlimited rfl h.sending h.receiving h.calls (by simp [postedIn, SessionEvent.posted?])

theorem finishCall (h : Healthy codec s es) (i : Nat) :
    Healthy codec (s.finishCall i).1 (es ++ (s.finishCall i).2) := by
  have hcalls (k : Nat) (message : Message) (hcall : Function.update s.calls i none k = some (.post message)) :
      message.Fits codec := by
    by_cases hk : k = i
    · subst hk
      rw [Function.update_self] at hcall
      cases hcall
    · rw [Function.update_of_ne hk] at hcall
      exact h.calls k message hcall
  unfold RlpxSession.finishCall
  rcases hcall : s.calls i with _ | (message | _)
  · exact h.of_eq rfl rfl h.unlimited rfl h.sending h.receiving h.calls (by simp [postedIn])
  · refine h.of_eq rfl rfl h.unlimited rfl h.sending h.receiving hcalls ?_
    intro posted hmem
    cases List.mem_singleton.mp hmem
    exact h.calls i message hcall
  · cases s.recvChannel with
    | nil =>
        exact h.of_eq rfl rfl h.unlimited rfl h.sending h.receiving hcalls (by simp [postedIn, SessionEvent.posted?])
    | cons message rest =>
        exact h.of_eq rfl rfl h.unlimited rfl h.sending h.receiving hcalls (by simp [postedIn, SessionEvent.posted?])

/-! ### The loops -/

theorem sendStep (h : Healthy codec s es) (hw : Writer env codec hello start s es) (hopened : s.point = .opened)
    (hstep : SendStep env codec s true s' evs) : Healthy codec s' (es ++ evs) := by
  have hpop {stream : MessageStream} (hlimit : stream.transport.writeLimit = none) (hposted : postedIn evs = []) :
      Healthy codec { s with stream, sendPoint := .popping, control := s.control.advance .send true } (es ++ evs) :=
    h.advance hopened rfl rfl hlimit rfl (fun hnot => absurd rfl hnot) (fun hold => ⟨hold, by decide⟩) rfl hposted
  have hsends {message : Message} (hpoint : s.sendPoint = .sending message) :
      ∃ stream, sendMessage env codec.toSnappy ⟨message.id, message.payload⟩ s.stream = .ok () stream ∧
        stream.transport.writeLimit = none := by
    have hmem : message ∈ postedIn es := by
      rw [h.posted_eq hw, taken_of_sending hpoint]
      simp
    refine sendMessage_of_unlimited ?_ h.unlimited
    rw [hw.mode.1, decide_eq_true hopened]
    exact (h.posted message hmem).le
  cases hstep with
  | outside hbody =>
      refine h.advance hopened rfl rfl h.unlimited rfl ?_ (fun hold => ⟨hold, by decide⟩) rfl rfl
      intro hold
      exact absurd (h.sending hold) hbody
  | empty hbody _ _ => exact h.of_eq rfl rfl h.unlimited rfl (fun _ => hbody) h.receiving h.calls (by simp [postedIn])
  | take hbody _ _ => exact h.of_eq rfl rfl h.unlimited rfl (fun _ => hbody) h.receiving h.calls (by simp [postedIn])
  | polled _ _ => exact hpop h.unlimited rfl
  | fail _ hpoint hsend =>
      obtain ⟨stream, hok, -⟩ := hsends hpoint
      rw [hok] at hsend
      cases hsend
  | sent _ hpoint hsend =>
      obtain ⟨stream, hok, hlimit⟩ := hsends hpoint
      rw [hok] at hsend
      cases hsend
      exact hpop hlimit rfl

end Healthy

theorem RlpxSession.Reader.ahead {handlers : Handlers} {out : Bytes} {arrived : Nat} {pending : List Bytes}
    (h : Reader env codec handlers hello start out arrived s es) (hworks : ¬ s.ReadOver) (hended : s.ended = false)
    (hout : out = framesOf (CipherHalf.emitFrame env) start (s.hasRead codec hello es ++ pending)) :
    s.stream.transport.incoming ++ out.drop arrived =
      framesOf (CipherHalf.emitFrame env) s.stream.cipher.ingress pending := by
  obtain ⟨hingress, -, harrived⟩ := h.reading hworks
  rw [framesOf_append, ← hingress] at hout
  have hall := List.take_append_drop arrived out
  rw [← harrived hended, List.append_assoc] at hall
  exact List.append_cancel_left (hall.trans hout)

/-- What an end that works is about to read: the Hello of its peer, then messages. -/
structure Ahead (env : RlpxPrimitives) (codec : SnappyCodec) (peerHello : HelloMessage) (s : RlpxSession) (rest : Bytes)
    (pending : List Bytes) : Prop where
  frames : s.stream.transport.incoming ++ rest = framesOf (CipherHalf.emitFrame env) s.stream.cipher.ingress pending
  fits : ∀ data ∈ pending, SizeFits data
  hello : s.point ≠ .opened → pending = [] ∨ ∃ more, pending = helloData codec peerHello :: more
  messages : s.point = .opened → ∃ flight : List Message, pending = flight.map (frameData codec)

namespace Healthy

variable {rest : Bytes} {pending : List Bytes}

theorem receives (h : Healthy codec s es) (hw : Writer env codec hello start s es)
    (hahead : Ahead env codec peerHello s rest pending)
    (hopened : s.point = .opened) (hread : s.canRead env = true) :
    ∃ message stream, receiveMessage env codec s.stream = .ok message stream := by
  rw [canRead, h.ended, Bool.false_or] at hread
  obtain ⟨flight, rfl⟩ := hahead.messages hopened
  obtain ⟨data, as, more, hpending, hin⟩ := frame_of_frameArrived hread hahead.fits hahead.frames
  obtain ⟨message, flight, rfl, rfl, -⟩ := List.map_eq_cons_iff.mp hpending
  have hdata : messageData codec.toSnappy s.stream.compressionEnabled ⟨message.id, message.payload⟩ =
      frameData codec message := by
    rw [hw.mode.1, decide_eq_true hopened]
    rfl
  have hfits : SizeFits (frameData codec message) := hahead.fits _ List.mem_cons_self
  rw [← hdata] at hin hfits
  exact ⟨_, _, receiveMessage_emit hfits.2 hin⟩

theorem receiveStep (h : Healthy codec s es) (hw : Writer env codec hello start s es)
    (hahead : Ahead env codec peerHello s rest pending)
    (hopened : s.point = .opened) (hstep : ReceiveStep env codec s s' evs) : Healthy codec s' (es ++ evs) := by
  cases hstep with
  | outside hbody =>
      refine h.advance hopened rfl rfl h.unlimited rfl (fun hold => ⟨hold, by decide⟩) ?_ rfl rfl
      intro hold
      exact absurd (h.receiving hold) hbody
  | wait _ _ _ => exact h.of_eq rfl rfl h.unlimited rfl h.sending h.receiving h.calls (by simp [postedIn])
  | store _ _ =>
      exact h.advance hopened rfl rfl h.unlimited rfl (fun hold => ⟨hold, by decide⟩)
        (fun hnot => absurd rfl hnot) rfl rfl
  | fail _ _ hread hmessage =>
      obtain ⟨message, stream, hok⟩ := h.receives hw hahead hopened hread
      rw [hok] at hmessage
      cases hmessage
  | @received message stream hbody _ _ hmessage =>
      have hsame : SameWriting s.stream stream := .of_receive hmessage
      obtain ⟨-, -, -, hposted, -⟩ := received_events message (routeMessage s.handlers message)
      refine h.of_eq rfl rfl (hsame.writeLimit.trans h.unlimited) rfl h.sending (fun _ => hbody) h.calls ?_
      rw [hposted]
      simp

/-! ### `connect` -/

theorem sendHello (h : Healthy codec s es) (hw : Writer env codec hello start s es) (hpoint : s.point = .sendHello)
    (hlen : hello.wire.item.encode.length < 2 ^ 64) (hfits : (helloData codec hello).length < 2 ^ 24) :
    Healthy codec (s.sendHello env codec).1 (es ++ (s.sendHello env codec).2) ∧
      (s.sendHello env codec).1.point = .awaitHello := by
  have hencode : s.hello.encode = .ok hello.wire.item.encode := by
    rw [hw.ownHello]
    exact encode_run (WireHello.sized_of_length hlen)
  have hsized : (messageData codec.toSnappy s.stream.compressionEnabled ⟨kHelloMessageId,
    hello.wire.item.encode⟩).length ≤ kMaxFrameSize := by
    rw [hw.mode.1, hpoint]
    exact hfits.le
  obtain ⟨stream, hsend, hlimit⟩ := @sendMessage_of_unlimited env _ _ _ hsized h.unlimited
  unfold RlpxSession.sendHello
  rw [hencode]
  dsimp only
  rw [hsend]
  refine ⟨⟨by simp, h.ended, hlimit, by simp, h.loops, h.sending, h.receiving, h.calls, ?_⟩, rfl⟩
  rw [postedIn_append]
  exact (List.append_nil (postedIn es)).symm ▸ h.posted

theorem opens (h : Healthy codec s es) (hw : Writer env codec hello start s es)
    (hahead : Ahead env codec peerHello s rest pending)
    (hpoint : s.point = .awaitHello) (hread : s.canRead env = true) (hlen : peerHello.wire.item.encode.length < 2 ^ 64)
    (hversion : kProtocolVersion ≤ peerHello.protocolVersion) :
    Healthy codec (s.receiveHello env codec).1 (es ++ (s.receiveHello env codec).2) ∧
      (s.receiveHello env codec).1.point = .opened := by
  have harrived : s.stream.frameArrived env = true := by rwa [canRead, h.ended, Bool.false_or] at hread
  obtain ⟨data, as, more, rfl, hin⟩ := frame_of_frameArrived harrived hahead.fits hahead.frames
  have hdata : messageData codec.toSnappy s.stream.compressionEnabled ⟨kHelloMessageId, peerHello.wire.item.encode⟩ =
      data := by
    rcases hahead.hello (by simp [hpoint]) with hnil | ⟨more', hcons⟩
    · cases hnil
    · rw [hw.mode.1, hpoint, (List.cons.inj hcons).1]
      rfl
  have hfits : SizeFits data := hahead.fits data List.mem_cons_self
  rw [← hdata] at hin hfits
  obtain ⟨info, hfirst, -⟩ := handleFirstMessage_hello hlen hversion s.info
  unfold RlpxSession.receiveHello
  rw [if_pos hread, receiveMessage_emit hfits.2 hin]
  dsimp only
  rw [hfirst]
  refine ⟨⟨by simp, h.ended, h.unlimited, fun _ => rfl, h.loops, h.sending, h.receiving, h.calls, ?_⟩, rfl⟩
  rw [postedIn_append]
  exact (List.append_nil (postedIn es)).symm ▸ h.posted

/-- **A calm step of one end.** -/
theorem step (h : Healthy codec s es) (hw : Writer env codec hello start s es)
    (hahead : Ahead env codec peerHello s rest pending)
    (hlen : hello.wire.item.encode.length < 2 ^ 64) (hfits : (helloData codec hello).length < 2 ^ 24)
    (hpeerLen : peerHello.wire.item.encode.length < 2 ^ 64) (hversion : kProtocolVersion ≤ peerHello.protocolVersion)
    {a : EndAction}
    (hcalm : a.Calm codec) : Healthy codec (s.step env codec a).1 (es ++ (s.step env codec a).2) := by
  have hsame : Healthy codec s (es ++ []) := by rwa [List.append_nil]
  cases a with
  | connect =>
      unfold RlpxSession.step stepConnect
      cases hpoint : s.point with
      | sendHello => exact (h.sendHello hw hpoint hlen hfits).1
      | awaitHello =>
          by_cases hread : s.canRead env = true
          · exact (h.opens hw hahead hpoint hread hpeerLen hversion).1
          · dsimp only
            unfold receiveHello
            rw [if_neg hread]
            exact hsame
      | opened => exact hsame
      | failed e => exact hsame
  | use use =>
      unfold RlpxSession.step
      split_ifs with hopened
      · cases use with
        | call i call => exact h.beginCall i hcalm
        | finish i => exact h.finishCall i
        | disconnect i spurious => exact hcalm.elim
        | send timerOk =>
            cases (hcalm : timerOk = true)
            exact h.sendStep hw hopened (sendStep_stepSend env codec s true)
        | receive => exact h.receiveStep hw hahead hopened (receiveStep_stepReceive env codec s)
      · exact hsame
  | cut keep error => exact hcalm.elim
  | breakWrites limit error => exact hcalm.elim

end Healthy

/-! ## Both ends -/

/-- Two ends in step, at which nothing has failed. -/
structure Working (env : RlpxPrimitives) (codec : SnappyCodec) (hello : Role →
    HelloMessage) (handlers : Role → Handlers)
    (start : Role → CipherHalf) (c : Connection) (events : List (Role × SessionEvent)) : Prop
    extends EndsInStep env codec hello handlers start c events where
  healthy : ∀ who, Healthy codec (c.ends who) (eventsAt who events)

section

variable {hello : Role → HelloMessage} {handlers : Role → Handlers} {start : Role → CipherHalf} {c : Connection}
  {events : List (Role × SessionEvent)}

def unread (codec : SnappyCodec) (peerHello : HelloMessage) (s : RlpxSession) (peerEvents : List SessionEvent)
    (flight : List Message) :
    List Bytes :=
  if s.point = .opened then flight.map (frameData codec) else wroteIn codec peerHello peerEvents

theorem Working.ahead (h : Working env codec hello handlers start c events)
    (hwelcome : Welcome codec hello) (who : Role) :
    ∃ flight, sentIn (eventsAt who.peer events) = receivedIn (eventsAt who events) ++ flight ∧
      wroteIn codec (hello who.peer) (eventsAt who.peer events) =
        (c.ends who).hasRead codec (hello who.peer) (eventsAt who events) ++
        unread codec (hello who.peer) (c.ends who) (eventsAt who.peer events) flight ∧
      Ahead env codec (hello who.peer) (c.ends who) (c.onTheWay who.peer)
        (unread codec (hello who.peer) (c.ends who) (eventsAt who.peer events) flight) := by
  obtain ⟨flight, hflight⟩ := h.received who
  have hpeer := h.healthy who.peer
  have hwriter := h.writer who.peer
  have hsplit : wroteIn codec (hello who.peer) (eventsAt who.peer events) =
      (c.ends who).hasRead codec (hello who.peer) (eventsAt who events) ++
        unread codec (hello who.peer) (c.ends who) (eventsAt who.peer events) flight := by
    unfold unread hasRead
    by_cases hopened : (c.ends who).point = .opened
    · rw [if_pos hopened, decide_eq_true hopened, wroteIn, h.greeted who hopened, ← hflight, contents_append]
    · rw [if_neg hopened, decide_eq_false hopened, (h.reader who).quiet hopened]
      rfl
  refine ⟨flight, hflight.symm, hsplit, ?_, ?_, ?_, ?_⟩
  · refine (h.reader who).ahead (h.healthy who).not_readOver (h.healthy who).ended ?_
    rw [← hsplit]
    exact (hwriter.exact hpeer.not_writeOver).outgoing
  · intro data hdata
    have hmem : data ∈ wroteIn codec (hello who.peer) (eventsAt who.peer events) :=
      hsplit ▸ List.mem_append_right _ hdata
    rcases List.mem_append.mp hmem with hhello | hmessage
    · have hdata : data = helloData codec (hello who.peer) := by
        split_ifs at hhello
        · exact List.mem_singleton.mp hhello
        · cases hhello
      rw [hdata]
      exact ⟨List.length_pos_iff.mpr (messageData_ne_nil _ _), hwelcome.fits who.peer⟩
    · obtain ⟨message, hsent, rfl⟩ := List.mem_map.mp hmessage
      exact (hpeer.sent_fits hwriter message hsent).sizeFits
  · intro hnot
    rw [unread, if_neg hnot, wroteIn, contents]
    cases hgreeted : hasGreeted (eventsAt who.peer events) with
    | false =>
        rw [hwriter.greeted hgreeted]
        exact .inl rfl
    | true => exact .inr ⟨_, rfl⟩
  · intro hopened
    exact ⟨flight, if_pos hopened⟩

/-- **Every calm action keeps both ends at work.** -/
theorem working_step (hwelcome : Welcome codec hello) (h : Working env codec hello handlers start c events)
    {a : ConnectionAction}
    (hcalm : a.Calm codec) : Working env codec hello handlers start (c.step env codec a).1
      (events ++ (c.step env codec a).2) := by
  refine ⟨endsInStep_step hwelcome.toGreetable h.toEndsInStep a, ?_⟩
  intro end'
  cases a with
  | act who action =>
      obtain ⟨flight, -, -, hahead⟩ := h.ahead hwelcome who
      have hstep := (h.healthy who).step (h.writer who) hahead (hwelcome.length who) (hwelcome.fits who)
        (hwelcome.length who.peer)
        (hwelcome.version who.peer) hcalm
      show Healthy codec (Function.update c.ends who ((c.ends who).step env codec action).1 end')
        (eventsAt end' (events ++ ((c.ends who).step env codec action).2.map (Prod.mk who)))
      rw [eventsAt_append]
      rcases who.eq_or_eq_peer end' with rfl | rfl
      · rw [Function.update_self, eventsAt_self]
        exact hstep
      · rw [Function.update_of_ne who.peer_ne, eventsAt_of_ne _ _ who.ne_peer, List.append_nil]
        exact h.healthy _
  | arrive who n =>
      show Healthy codec ((c.arrive who n).ends end') (eventsAt end' (events ++ []))
      rw [List.append_nil]
      unfold Connection.arrive
      split_ifs
      · exact h.healthy end'
      · rcases who.eq_or_eq_peer end' with rfl | rfl
        · dsimp only
          rw [Function.update_of_ne (Role.ne_peer _)]
          exact h.healthy _
        · dsimp only
          rw [Function.update_self]
          have hold := h.healthy who.peer
          exact ⟨hold.point, hold.ended, hold.unlimited, hold.active, hold.loops, hold.sending, hold.receiving,
            hold.calls, hold.posted⟩

theorem working_new (hello : Role → HelloMessage) (handlers : Role → Handlers) {secrets : Role → FrameSecrets}
    (hmirrored : Mirrored (secrets .initiator) (secrets .responder)) :
    Working env codec hello handlers (fun who => (FrameCipher.new (secrets who)).egress)
      (.new hello handlers secrets) [] := by
  refine ⟨endsInStep_new hello handlers (mirrored_peer hmirrored), fun who => ?_⟩
  refine ⟨?_, rfl, rfl, ?_, ?_, fun hnot => absurd rfl hnot, fun hnot => absurd rfl hnot, ?_, ?_⟩
  · intro e hfailed
    cases hfailed
  · intro hopened
    cases hopened
  · intro l hexited
    cases hexited
  · intro i message hcall
    cases hcall
  · intro message hmem
    cases hmem

theorem working_run (hwelcome : Welcome codec hello) {secrets : Role → FrameSecrets}
    (hmirrored : Mirrored (secrets .initiator) (secrets .responder)) {actions : List ConnectionAction}
    (hcalm : ∀ a ∈ actions, a.Calm codec) :
    Working env codec hello handlers (fun who => (FrameCipher.new (secrets who)).egress)
      ((Connection.new hello handlers secrets).after env codec actions)
        ((Connection.new hello handlers secrets).trace env codec actions) :=
  runEffects_invariant (I := Working env codec hello handlers fun who => (FrameCipher.new (secrets who)).egress)
    (fun a ha _ _ h => working_step hwelcome h (hcalm a ha)) (working_new hello handlers hmirrored)

end

/-- **Where nothing fails, nothing is lost.** In every run of calm actions no `connect` fails, an opened session stays
active with both loops at work, and of the messages posted at an end the first were received, the next are in flight,
and the others wait; what is in flight is, as frames, what has arrived and was not read and what is on the way. -/
theorem calm_runs_lose_nothing (env : RlpxPrimitives) (codec : SnappyCodec) (hello : Role → HelloMessage)
    (handlers : Role → Handlers)
    (secrets : Role → FrameSecrets) (hmirrored : Mirrored (secrets .initiator) (secrets .responder))
    (hwelcome : Welcome codec hello)
    (actions : List ConnectionAction) (hcalm : ∀ a ∈ actions, a.Calm codec) (who : Role) :
    let c := (Connection.new hello handlers secrets).after env codec actions
    let events := (Connection.new hello handlers secrets).trace env codec actions
    (∀ e, (c.ends who).point ≠ .failed e) ∧
      ((c.ends who).point = .opened → (c.ends who).control.state = .kActive ∧
        ∀ l, (c.ends who).control.loops l ≠ .exited) ∧
      ∃ flight, postedIn (eventsAt who events) =
          receivedIn (eventsAt who.peer events) ++ flight ++ (c.ends who).taken ++ (c.ends who).sendChannel ∧
        ((c.ends who.peer).point = .opened →
          (c.ends who.peer).stream.transport.incoming ++ c.onTheWay who =
            framesOf (CipherHalf.emitFrame env) (c.ends who.peer).stream.cipher.ingress
            (flight.map (frameData codec))) := by
  intro c events
  have h : Working env codec hello handlers _ c events := working_run hwelcome hmirrored hcalm
  obtain ⟨flight, hsent, -, hahead⟩ := h.ahead hwelcome who.peer
  rw [Role.peer_peer] at hsent hahead
  refine ⟨(h.healthy who).point, fun hopened => ⟨(h.healthy who).active hopened, (h.healthy who).loops⟩, flight, ?_, ?_⟩
  · rw [(h.healthy who).posted_eq (h.writer who), hsent]
    simp only [List.append_assoc]
  · intro hopened
    have hframes := hahead.frames
    rwa [unread, if_pos hopened] at hframes

theorem welcome_sample : Welcome sampleCodec fun who => (sampleParams who).hello := by
  refine ⟨greetable_sample, fun who => ?_⟩
  cases who with
  | initiator =>
      rw [helloData, WireHello.encode_item]
      decide +kernel
  | responder =>
      rw [helloData, WireHello.encode_item]
      decide +kernel

def sampleConnection : Connection := .new (fun who => (sampleParams who).hello)
    (fun _ => sampleHandlers) fun _ => sampleSecrets

/-- The run up to the failure: the send loop of the responder holds its second message. -/
theorem calm_runs_lose_nothing_sample :
    let c := sampleConnection.after sampleEnv sampleCodec (sampleSchedule.take 16)
    let events := sampleConnection.trace sampleEnv sampleCodec (sampleSchedule.take 16)
    (∀ e, (c.ends .responder).point ≠ .failed e) ∧
      ((c.ends .responder).point = .opened →
        (c.ends .responder).control.state = .kActive ∧ ∀ l, (c.ends .responder).control.loops l ≠ .exited) ∧
      ∃ flight, postedIn (eventsAt .responder events) =
          receivedIn (eventsAt (Role.peer .responder) events) ++ flight ++ (c.ends .responder).taken ++
            (c.ends .responder).sendChannel ∧
        ((c.ends (Role.peer .responder)).point = .opened →
          (c.ends (Role.peer .responder)).stream.transport.incoming ++ c.onTheWay .responder =
            framesOf (CipherHalf.emitFrame sampleEnv) (c.ends (Role.peer .responder)).stream.cipher.ingress
              (flight.map (frameData sampleCodec))) := by
  have hfits : (⟨1, []⟩ : Message).Fits sampleCodec ∧ (⟨16, [1, 2, 3]⟩ : Message).Fits sampleCodec := by
    unfold Message.Fits
    decide +kernel
  have hcalm : ∀ a ∈ sampleSchedule.take 16, a.Calm sampleCodec := by
    simp [sampleSchedule, ConnectionAction.Calm, EndAction.Calm, SessionUse.Calm]
    exact hfits
  unfold sampleConnection
  exact calm_runs_lose_nothing sampleEnv sampleCodec (fun who => (sampleParams who).hello) (fun _ => sampleHandlers)
    (fun _ => sampleSecrets) ⟨rfl, rfl, rfl, rfl⟩ welcome_sample (sampleSchedule.take 16) hcalm .responder

end DevP2P.Rlpx
