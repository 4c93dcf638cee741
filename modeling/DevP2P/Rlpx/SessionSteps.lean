import DevP2P.Rlpx.FramedStream

/-!
# What a step of a session does

* `Writer` : what an end has written is the frames of its Hello and of the messages posted, in order, up to a failure;
* `Reader` : what an end has read is the frames at the front of what its peer has written;
* `KeepsWriter`, `KeepsReader` : a step that writes or reads nothing;
* `SendStep`, `ReceiveStep` : what the steps of the loops do; `writer_sendStep`, `reader_receiveStep` : what they keep;
* `writer_sendHello`, `receiveHello_step` : the same for `connect`.
-/

namespace DevP2P.Rlpx
open DevP2P.Lib DevP2P.Rlp

/-! ## Frames of an end -/

section

variable (codec : SnappyCodec)

/-- The content of the frame of a Hello, which is never compressed. -/
def helloData (hello : HelloMessage) : Bytes := messageData codec.toSnappy false ⟨kHelloMessageId,
    hello.wire.item.encode⟩

/-- The content of the frame of a message behind the Hello. -/
def frameData (message : Message) : Bytes := messageData codec.toSnappy true ⟨message.id, message.payload⟩

/-- The contents of the frames of an end: its Hello and then messages. -/
def contents (hello : HelloMessage) (greeted : Bool) (messages : List Message) : List Bytes :=
  (if greeted then [helloData codec hello] else []) ++ messages.map (frameData codec)

theorem contents_append (hello : HelloMessage) (greeted : Bool) (as bs : List Message) :
    contents codec hello greeted (as ++ bs) = contents codec hello greeted as ++ bs.map (frameData codec) := by
  rw [contents, List.map_append, ← List.append_assoc]
  rfl

end

def hasGreeted (events : List SessionEvent) : Bool := events.any (· = .greeted)

def wroteIn (codec : SnappyCodec) (hello : HelloMessage) (events : List SessionEvent) : List Bytes :=
  contents codec hello (hasGreeted events) (sentIn events)

section

variable (es evs : List SessionEvent)

@[simp] theorem openedIn_append : openedIn (es ++ evs) = openedIn es ++ openedIn evs := List.filterMap_append
@[simp] theorem postedIn_append : postedIn (es ++ evs) = postedIn es ++ postedIn evs := List.filterMap_append
@[simp] theorem sentIn_append : sentIn (es ++ evs) = sentIn es ++ sentIn evs := List.filterMap_append
@[simp] theorem receivedIn_append : receivedIn (es ++ evs) = receivedIn es ++ receivedIn evs := List.filterMap_append
@[simp] theorem pulledIn_append : pulledIn (es ++ evs) = pulledIn es ++ pulledIn evs := List.filterMap_append
@[simp] theorem handledIn_append : handledIn (es ++ evs) = handledIn es ++ handledIn evs := List.filterMap_append
@[simp] theorem hasGreeted_append : hasGreeted (es ++ evs) = (hasGreeted es || hasGreeted evs) := List.any_append

theorem received_events (message : Message) (calls : List HandlerCall) :
    let events := SessionEvent.received message :: calls.map .handled
    receivedIn events = [message] ∧ handledIn events = calls ∧ openedIn events = [] ∧ postedIn events = [] ∧
      sentIn events = [] ∧
      pulledIn events = [] ∧ hasGreeted events = false := by
  have hnone {β : Type} (f : SessionEvent → Option β) (hf : ∀ call, f (.handled call) = none) :
      (calls.map SessionEvent.handled).filterMap f = [] := by
    rw [List.filterMap_map]
    exact List.filterMap_eq_nil_iff.mpr fun call _ => hf call
  have hhandled : (calls.map SessionEvent.handled).filterMap SessionEvent.handled? = calls := by
    rw [List.filterMap_map]
    exact List.filterMap_some
  refine ⟨congrArg (List.cons message) (hnone _ fun _ => rfl), hhandled, hnone _ fun _ => rfl, hnone _ fun _ => rfl,
    hnone _ fun _ => rfl, hnone _ fun _ => rfl, ?_⟩
  simp [hasGreeted]

end

namespace RlpxSession

def WriteOver (s : RlpxSession) : Prop := (∃ e, s.point = .failed e) ∨ s.control.loops .send = .exited

def ReadOver (s : RlpxSession) : Prop := (∃ e, s.point = .failed e) ∨ s.control.loops .receive = .exited

theorem not_over {s : RlpxSession} {l : SessionLoop} (hpoint : ∀ e, s.point ≠ .failed e)
    (hloop : s.control.loops l ≠ .exited) :
    ¬ ((∃ e, s.point = .failed e) ∨ s.control.loops l = .exited) := by
  rintro (⟨e, hfailed⟩ | hexited)
  · exact hpoint e hfailed
  · exact hloop hexited

/-- The message that the send loop has taken from its channel. -/
def taken (s : RlpxSession) : List Message :=
  match s.sendPoint with
  | .sending message => [message]
  | _ => []

/-- The message that the receive loop has not put into its channel. -/
def routed (s : RlpxSession) : List Message :=
  match s.receivePoint with
  | .routed message => [message]
  | .reading => []

/-- The contents of the frames that the session has read, its peer's Hello being `hello`. -/
def hasRead (codec : SnappyCodec) (hello : HelloMessage) (s : RlpxSession) (es : List SessionEvent) : List Bytes :=
  contents codec hello (decide (s.point = .opened)) (receivedIn es)

/-! ## What an end writes -/

/-- What an end whose cipher started in the state `start` has written. -/
structure Writer (env : RlpxPrimitives) (codec : SnappyCodec) (hello : HelloMessage) (start : CipherHalf)
    (s : RlpxSession)
    (es : List SessionEvent) : Prop where
  ownHello : s.hello = hello
  mode : s.stream.compressionEnabled = decide (s.point = .opened) ∧
    s.info.compressionEnabled = s.stream.compressionEnabled
  queued : ∃ rest, postedIn es = sentIn es ++ rest ∧ (¬ s.WriteOver → rest = s.taken ++ s.sendChannel)
  /-- Nothing is sent before the Hello. -/
  greeted : hasGreeted es = false → sentIn es = []
  silent : s.point = .sendHello → hasGreeted es = false
  greets : s.point = .awaitHello ∨ s.point = .opened → hasGreeted es = true
  framed : Framed (CipherHalf.emitFrame env) FrameSized start s.stream.transport.outgoing (wroteIn codec hello es)
  exact : ¬ s.WriteOver → Wrote env start s.stream (wroteIn codec hello es)

structure KeepsWriter (s s' : RlpxSession) (evs : List SessionEvent) : Prop where
  hello : s'.hello = s.hello
  point : s'.point = s.point
  mode : s'.stream.compressionEnabled = s.stream.compressionEnabled ∧
    s'.info.compressionEnabled = s.info.compressionEnabled
  egress : s'.stream.cipher.egress = s.stream.cipher.egress
  outgoing : s'.stream.transport.outgoing = s.stream.transport.outgoing
  queue : s'.taken ++ s'.sendChannel = s.taken ++ s.sendChannel ++ postedIn evs
  finished : s.WriteOver → s'.WriteOver
  sent : sentIn evs = []
  greeted : hasGreeted evs = false

/-- The session has what its peer said of itself. -/
def Learned (hello : HelloMessage) (info : SessionInfo) : Prop :=
  info = ⟨hello.clientId, hello.listenPort, negotiateEthVersion hello.capabilities, true⟩

/-- What an end has read whose peer started in the state `start`, sent `hello` and has written `out`, of which `arrived`
bytes have arrived. -/
structure Reader (env : RlpxPrimitives) (codec : SnappyCodec) (handlers : Handlers) (hello : HelloMessage)
    (start : CipherHalf)
    (out : Bytes) (arrived : Nat) (s : RlpxSession) (es : List SessionEvent) : Prop where
  ownHandlers : s.handlers = handlers
  quiet : s.point ≠ .opened → receivedIn es = []
  learned : ∀ info ∈ openedIn es, Learned hello info
  queue : receivedIn es = pulledIn es ++ (s.recvChannel ++ s.routed)
  handled : handledIn es = (receivedIn es).flatMap (routeMessage handlers)
  bound : arrived ≤ out.length
  reading : ¬ s.ReadOver →
    s.stream.cipher.ingress = (emitAll (CipherHalf.emitFrame env) start (s.hasRead codec hello es)).2 ∧
    framesOf (CipherHalf.emitFrame env) start (s.hasRead codec hello es) ++
      s.stream.transport.incoming <+: out ∧
    (s.ended = false →
      framesOf (CipherHalf.emitFrame env) start (s.hasRead codec hello es) ++
        s.stream.transport.incoming = out.take arrived)

structure KeepsReader (s s' : RlpxSession) (evs : List SessionEvent) : Prop where
  handlers : s'.handlers = s.handlers
  opened : s'.point = .opened ↔ s.point = .opened
  finished : s.ReadOver → s'.ReadOver
  ingress : ¬ s'.ReadOver → s'.stream.cipher.ingress = s.stream.cipher.ingress
  incoming : ¬ s'.ReadOver → s'.stream.transport.incoming <+: s.stream.transport.incoming
  arriving : ¬ s'.ReadOver → s'.ended = false → s.ended = false ∧
    s'.stream.transport.incoming = s.stream.transport.incoming
  queue : pulledIn evs ++ (s'.recvChannel ++ s'.routed) = s.recvChannel ++ s.routed
  opens : openedIn evs = []
  received : receivedIn evs = []
  handled : handledIn evs = []

variable {env : RlpxPrimitives} {codec : SnappyCodec} {hello : HelloMessage} {start : CipherHalf} {s s' : RlpxSession}
  {es evs : List SessionEvent}

theorem Writer.keep (h : Writer env codec hello start s es) (hk : KeepsWriter s s' evs) :
    Writer env codec hello start s' (es ++ evs) := by
  obtain ⟨rest, hposted, hrest⟩ := h.queued
  have hgreeted : hasGreeted (es ++ evs) = hasGreeted es := by rw [hasGreeted_append, hk.greeted, Bool.or_false]
  have hsent : sentIn (es ++ evs) = sentIn es := by rw [sentIn_append, hk.sent, List.append_nil]
  have hwrote : wroteIn codec hello (es ++ evs) = wroteIn codec hello es := by rw [wroteIn, hgreeted, hsent, wroteIn]
  refine ⟨hk.hello.trans h.ownHello, ?_, ⟨rest ++ postedIn evs, ?_, ?_⟩, ?_, ?_, ?_, ?_, ?_⟩
  · rw [hk.mode.1, hk.mode.2, hk.point]
    exact h.mode
  · rw [postedIn_append, hsent, hposted, List.append_assoc]
  · intro hnot
    rw [hk.queue, hrest fun hover => hnot (hk.finished hover)]
  · rw [hgreeted, hsent]
    exact h.greeted
  · rw [hk.point, hgreeted]
    exact h.silent
  · rw [hk.point, hgreeted]
    exact h.greets
  · rw [hk.outgoing, hwrote]
    exact h.framed
  · intro hnot
    rw [hwrote]
    exact (h.exact fun hover => hnot (hk.finished hover)).of_eq hk.outgoing hk.egress

theorem Reader.keep {handlers : Handlers} {out : Bytes} {arrived : Nat}
    (h : Reader env codec handlers hello start out arrived s es)
    (hk : KeepsReader s s' evs) : Reader env codec handlers hello start out arrived s' (es ++ evs) := by
  have hreceived : receivedIn (es ++ evs) = receivedIn es := by rw [receivedIn_append, hk.received, List.append_nil]
  have hhandled : handledIn (es ++ evs) = handledIn es := by rw [handledIn_append, hk.handled, List.append_nil]
  have hread : s'.hasRead codec hello (es ++ evs) = s.hasRead codec hello es := by
    rw [hasRead, hreceived, decide_eq_decide.mpr hk.opened, hasRead]
  refine ⟨hk.handlers.trans h.ownHandlers, ?_, ?_, ?_, ?_, h.bound, ?_⟩
  · rw [ne_eq, hk.opened, hreceived]
    exact h.quiet
  · rw [openedIn_append, hk.opens, List.append_nil]
    exact h.learned
  · rw [hreceived, pulledIn_append, List.append_assoc, hk.queue]
    exact h.queue
  · rw [hreceived, hhandled]
    exact h.handled
  · intro hnot
    obtain ⟨hingress, hpre, harrived⟩ := h.reading fun hover => hnot (hk.finished hover)
    rw [hread, hk.ingress hnot]
    refine ⟨hingress, ((List.prefix_append_right_inj _).mpr (hk.incoming hnot)).trans hpre, ?_⟩
    intro hended
    obtain ⟨hold, hincoming⟩ := hk.arriving hnot hended
    rw [hincoming]
    exact harrived hold

theorem Reader.grow {handlers : Handlers} {out out' : Bytes} {arrived : Nat}
    (h : Reader env codec handlers hello start out arrived s es)
    (hout : out <+: out') : Reader env codec handlers hello start out' arrived s es := by
  obtain ⟨more, rfl⟩ := hout
  refine ⟨h.ownHandlers, h.quiet, h.learned, h.queue, h.handled,
    h.bound.trans (by rw [List.length_append]; exact Nat.le_add_right _ _), ?_⟩
  intro hnot
  obtain ⟨hingress, hpre, harrived⟩ := h.reading hnot
  refine ⟨hingress, hpre.trans (List.prefix_append _ _), ?_⟩
  intro hended
  rw [List.take_append_of_le_length h.bound]
  exact harrived hended

end RlpxSession

/-! ## The loops and the calls -/

namespace Session

variable (s : Session)

theorem loops_disconnect (i : Nat) (spurious : Bool) : (s.step (.disconnect i spurious)).1.loops = s.loops := by
  show (s.stepDisconnect i spurious (s.callers i)).1.loops = s.loops
  cases s.callers i with
  | load => rfl
  | exchange expected =>
      simp only [stepDisconnect]
      split_ifs <;> rfl
  | store => rfl
  | close => rfl
  | returned => rfl

theorem loops_advance_of_ne {l k : SessionLoop} (hne : k ≠ l) (succeeds : Bool) :
    (s.advance l succeeds).loops k = s.loops k := by
  show (s.stepLoop l succeeds (s.loops l)).1.loops k = s.loops k
  cases s.loops l with
  | check => exact Function.update_of_ne hne _ _
  | body =>
      cases succeeds with
      | false => exact Function.update_of_ne hne _ _
      | true => exact Function.update_of_ne hne _ _
  | exited => rfl

theorem advance_of_exited {l : SessionLoop} (h : s.loops l = .exited) (succeeds : Bool) : s.advance l succeeds = s := by
  show (s.stepLoop l succeeds (s.loops l)).1 = s
  rw [h]
  rfl

theorem loops_advance_false {l : SessionLoop} (h : s.loops l = .body) : (s.advance l false).loops l = .exited := by
  show (s.stepLoop l false (s.loops l)).1.loops l = .exited
  rw [h]
  exact Function.update_self _ _ _

end Session

namespace RlpxSession

variable {env : RlpxPrimitives} {codec : SnappyCodec} {hello : HelloMessage} {start : CipherHalf} {s s' : RlpxSession}
  {es evs : List SessionEvent}

theorem KeepsWriter.of_eq (hhello : s'.hello = s.hello) (hpoint : s'.point = s.point)
    (hstream : SameWriting s.stream s'.stream)
    (hinfo : s'.info = s.info) (hloop : s.control.loops .send = .exited → s'.control.loops .send = .exited)
    (hqueue : s'.taken ++ s'.sendChannel = s.taken ++ s.sendChannel ++ postedIn evs) (hsent : sentIn evs = [])
    (hgreeted : hasGreeted evs = false) : KeepsWriter s s' evs := by
  refine ⟨hhello, hpoint, ⟨hstream.mode, by rw [hinfo]⟩, hstream.egress, hstream.outgoing, hqueue, ?_, hsent, hgreeted⟩
  rintro (hfailed | hexited)
  · exact .inl (by rwa [hpoint])
  · exact .inr (hloop hexited)

theorem KeepsReader.of_eq (hhandlers : s'.handlers = s.handlers) (hopened : s'.point = .opened ↔ s.point = .opened)
    (hover : s.ReadOver → s'.ReadOver) (hstream : SameReading s.stream s'.stream) (hended : s'.ended = s.ended)
    (hqueue : pulledIn evs ++ (s'.recvChannel ++ s'.routed) = s.recvChannel ++ s.routed) (hopens : openedIn evs = [])
    (hreceived : receivedIn evs = []) (hhandled : handledIn evs = []) : KeepsReader s s' evs :=
  ⟨hhandlers, hopened, hover, fun _ => hstream.ingress, fun _ => hstream.incoming ▸ List.prefix_rfl,
    fun _ h => ⟨hended ▸ h, hstream.incoming⟩, hqueue, hopens, hreceived, hhandled⟩

/-! ### The calls -/

theorem keeps_beginCall (i : Nat) (call : ApiCall) (s : RlpxSession) :
    KeepsWriter s (s.beginCall i call).1 (s.beginCall i call).2 ∧
      KeepsReader s (s.beginCall i call).1 (s.beginCall i call).2 := by
  have hqueue : s.taken ++ s.sendChannel = s.taken ++ s.sendChannel ++ [] := (List.append_nil _).symm
  unfold beginCall
  cases s.calls i with
  | some _ =>
      exact ⟨.of_eq rfl rfl (.refl _) rfl id hqueue rfl rfl, .of_eq rfl Iff.rfl id (.refl _) rfl rfl rfl rfl rfl⟩
  | none =>
      dsimp only
      split_ifs
      · exact ⟨.of_eq rfl rfl (.refl _) rfl id hqueue rfl rfl, .of_eq rfl Iff.rfl id (.refl _) rfl rfl rfl rfl rfl⟩
      · exact ⟨.of_eq rfl rfl (.refl _) rfl id hqueue rfl rfl, .of_eq rfl Iff.rfl id (.refl _) rfl rfl rfl rfl rfl⟩

theorem keeps_finishCall (i : Nat) (s : RlpxSession) :
    KeepsWriter s (s.finishCall i).1 (s.finishCall i).2 ∧ KeepsReader s (s.finishCall i).1 (s.finishCall i).2 := by
  have hqueue : s.taken ++ s.sendChannel = s.taken ++ s.sendChannel ++ [] := (List.append_nil _).symm
  unfold finishCall
  rcases s.calls i with _ | (message | _)
  · exact ⟨.of_eq rfl rfl (.refl _) rfl id hqueue rfl rfl, .of_eq rfl Iff.rfl id (.refl _) rfl rfl rfl rfl rfl⟩
  · exact ⟨.of_eq rfl rfl (.refl _) rfl id (List.append_assoc _ _ _).symm rfl rfl,
      .of_eq rfl Iff.rfl id (.refl _) rfl rfl rfl rfl rfl⟩
  · cases hchannel : s.recvChannel with
    | nil =>
        refine ⟨.of_eq rfl rfl (.refl _) rfl id hqueue rfl rfl, .of_eq rfl Iff.rfl id (.refl _) rfl ?_ rfl rfl rfl⟩
        rw [hchannel]
        rfl
    | cons message rest =>
        refine ⟨.of_eq rfl rfl (.refl _) rfl id hqueue rfl rfl, .of_eq rfl Iff.rfl id (.refl _) rfl ?_ rfl rfl rfl⟩
        rw [hchannel]
        rfl

theorem keeps_stepDisconnect (i : Nat) (spurious : Bool) (s : RlpxSession) :
    KeepsWriter s (s.stepDisconnect i spurious) [] ∧ KeepsReader s (s.stepDisconnect i spurious) [] := by
  have hqueue : s.taken ++ s.sendChannel = s.taken ++ s.sendChannel ++ [] := (List.append_nil _).symm
  have hloops := s.control.loops_disconnect i spurious
  have hsend : s.control.loops .send = .exited → (s.control.step (.disconnect i spurious)).1.loops .send = .exited := by
    rw [hloops]
    exact id
  have hreceive : s.ReadOver → (∃ e, s.point = .failed e) ∨
      (s.control.step (.disconnect i spurious)).1.loops .receive = .exited := by
    rw [hloops]
    exact id
  unfold stepDisconnect
  dsimp only
  split_ifs
  · exact ⟨⟨rfl, rfl, ⟨rfl, rfl⟩, rfl, rfl, hqueue, Or.imp id hsend, rfl, rfl⟩,
      ⟨rfl, Iff.rfl, hreceive, fun _ => rfl, fun _ => List.nil_prefix, by simp, rfl, rfl, rfl, rfl⟩⟩
  · exact ⟨.of_eq rfl rfl (.refl _) rfl hsend hqueue rfl rfl, .of_eq rfl Iff.rfl hreceive (.refl _) rfl rfl rfl rfl rfl⟩

/-! ### The send loop -/

section

variable (env codec) (s : RlpxSession)

inductive SendStep (timerOk : Bool) : RlpxSession → List SessionEvent → Prop
  | outside : s.control.loops .send ≠ .body → SendStep timerOk { s with control := s.control.advance .send true } []
  | empty : s.control.loops .send = .body → s.sendPoint = .popping → s.sendChannel = [] →
      SendStep timerOk { s with sendPoint := .polling, sendChannel := [] } []
  | take {message : Message} {rest : List Message} : s.control.loops .send = .body → s.sendPoint = .popping →
      s.sendChannel = message :: rest →
      SendStep timerOk { s with sendPoint := .sending message, sendChannel := rest } []
  | polled : s.control.loops .send = .body → s.sendPoint = .polling →
      SendStep timerOk { s with sendPoint := .popping, control := s.control.advance .send timerOk } []
  | fail {message : Message} {e : SessionError} {stream : MessageStream} : s.control.loops .send = .body →
      s.sendPoint = .sending message → sendMessage env codec.toSnappy ⟨message.id, message.payload⟩ s.stream =
        .error e stream →
      SendStep timerOk { s with stream, sendPoint := .popping, control := s.control.advance .send false } []
  | sent {message : Message} {stream : MessageStream} : s.control.loops .send = .body →
      s.sendPoint = .sending message → sendMessage env codec.toSnappy ⟨message.id, message.payload⟩ s.stream =
        .ok () stream →
      SendStep timerOk { s with stream, sendPoint := .popping, control := s.control.advance .send true } [.sent message]

theorem sendStep_stepSend (timerOk : Bool) :
    SendStep env codec s timerOk (s.stepSend env codec timerOk).1 (s.stepSend env codec timerOk).2 := by
  unfold stepSend
  by_cases hbody : s.control.loops .send = .body
  · rw [if_pos hbody]
    cases hpoint : s.sendPoint with
    | popping =>
        cases hchannel : s.sendChannel with
        | nil => exact .empty hbody hpoint hchannel
        | cons message rest => exact .take hbody hpoint hchannel
    | polling => exact .polled hbody hpoint
    | sending message =>
        dsimp only
        cases hsend : sendMessage env codec.toSnappy ⟨message.id, message.payload⟩ s.stream with
        | error e stream => exact .fail hbody hpoint hsend
        | ok u stream => exact .sent hbody hpoint hsend
  · rw [if_neg hbody]
    exact .outside hbody

end

theorem taken_of_sending {message : Message} (h : s.sendPoint = .sending message) : s.taken = [message] := by
  unfold taken
  rw [h]

theorem keepsReader_sendStep {timerOk : Bool} (h : SendStep env codec s timerOk s' evs) : KeepsReader s s' evs := by
  have hover (control : Session) (hcontrol : control.loops .receive = s.control.loops .receive) :
      s.ReadOver → (∃ e, s.point = .failed e) ∨ control.loops .receive = .exited := by
    rw [hcontrol]
    exact id
  have hloop (succeeds : Bool) := s.control.loops_advance_of_ne (show SessionLoop.receive ≠ .send by decide) succeeds
  cases h with
  | outside _ => exact .of_eq rfl Iff.rfl (hover _ (hloop true)) (.refl _) rfl rfl rfl rfl rfl
  | empty _ _ _ => exact .of_eq rfl Iff.rfl id (.refl _) rfl rfl rfl rfl rfl
  | take _ _ _ => exact .of_eq rfl Iff.rfl id (.refl _) rfl rfl rfl rfl rfl
  | polled _ _ => exact .of_eq rfl Iff.rfl (hover _ (hloop timerOk)) (.refl _) rfl rfl rfl rfl rfl
  | fail _ _ hsend =>
      exact .of_eq rfl Iff.rfl (hover _ (hloop false)) (sameReading_sendMessage hsend) rfl rfl rfl rfl rfl
  | sent _ _ hsend =>
      exact .of_eq rfl Iff.rfl (hover _ (hloop true)) (sameReading_sendMessage hsend) rfl rfl rfl rfl rfl

theorem point_sendStep {timerOk : Bool} (h : SendStep env codec s timerOk s' evs) : s'.point = s.point := by
  cases h <;> rfl

theorem outgoing_isPrefix_sendStep {timerOk : Bool} (h : SendStep env codec s timerOk s' evs) :
    s.stream.transport.outgoing <+: s'.stream.transport.outgoing := by
  cases h with
  | outside _ => exact List.prefix_rfl
  | empty _ _ _ => exact List.prefix_rfl
  | take _ _ _ => exact List.prefix_rfl
  | polled _ _ => exact List.prefix_rfl
  | fail _ _ hsend => exact outgoing_isPrefix_of_send hsend
  | sent _ _ hsend => exact outgoing_isPrefix_of_send hsend

theorem writer_sendStep {timerOk : Bool} (h : Writer env codec hello start s es) (hopened : s.point = .opened)
    (hstep : SendStep env codec s timerOk s' evs) : Writer env codec hello start s' (es ++ evs) := by
  have hmode : s.stream.compressionEnabled = true := by rw [h.mode.1, hopened]; rfl
  have hgreeted : hasGreeted es = true := h.greets (.inr hopened)
  have hworks (hbody : s.control.loops .send = .body) : ¬ s.WriteOver := not_over (by simp [hopened]) (by simp [hbody])
  cases hstep with
  | outside hbody =>
      refine h.keep (.of_eq rfl rfl (.refl _) rfl ?_ (List.append_nil _).symm rfl rfl)
      intro hexited
      show (s.control.advance .send true).loops .send = .exited
      rw [s.control.advance_of_exited hexited, hexited]
  | empty _ hpoint hchannel =>
      refine h.keep (.of_eq rfl rfl (.refl _) rfl id ?_ rfl rfl)
      simp [taken, hpoint, hchannel, postedIn]
  | take _ hpoint hchannel =>
      refine h.keep (.of_eq rfl rfl (.refl _) rfl id ?_ rfl rfl)
      simp [taken, hpoint, hchannel, postedIn]
  | polled hbody hpoint =>
      refine h.keep (.of_eq rfl rfl (.refl _) rfl ?_ ?_ rfl rfl)
      · intro hexited
        rw [hbody] at hexited
        cases hexited
      · simp [taken, hpoint, postedIn]
  | fail hbody hpoint hsend =>
      have hexited := s.control.loops_advance_false hbody
      obtain ⟨rest, hposted, -⟩ := h.queued
      obtain ⟨hsame, hframed⟩ := framed_of_failed (h.exact (hworks hbody)) hsend
      rw [List.append_nil]
      exact ⟨h.ownHello, ⟨hsame.trans h.mode.1, h.mode.2.trans hsame.symm⟩,
        ⟨rest, hposted, fun hnot => absurd (.inr hexited) hnot⟩,
        h.greeted, h.silent, h.greets, hframed, fun hnot => absurd (.inr hexited) hnot⟩
  | @sent message stream hbody hpoint hsend =>
      obtain ⟨rest, hposted, hrest⟩ := h.queued
      have hdata : messageData codec.toSnappy s.stream.compressionEnabled ⟨message.id, message.payload⟩ =
          frameData codec message := by
        rw [hmode]
        rfl
      obtain ⟨hsame, hexact⟩ := wrote_of_sent (h.exact (hworks hbody)) hdata hsend
      have hgreeted' : hasGreeted (es ++ [.sent message]) = true := by
        rw [hasGreeted_append, hgreeted]
        rfl
      have hwrote : wroteIn codec hello (es ++ [.sent message]) = wroteIn codec hello es ++
          [frameData codec message] := by
        rw [wroteIn, hgreeted', sentIn_append, contents_append, wroteIn, hgreeted]
        rfl
      rw [← hwrote] at hexact
      refine ⟨h.ownHello, ⟨hsame.trans h.mode.1, h.mode.2.trans hsame.symm⟩, ⟨s.sendChannel, ?_, fun _ => rfl⟩, ?_, ?_,
        fun _ => hgreeted', hexact.framed, fun _ => hexact⟩
      · rw [postedIn_append, sentIn_append, hposted, hrest (hworks hbody), taken_of_sending hpoint,
          show postedIn [SessionEvent.sent message] = [] from rfl, List.append_nil, ← List.append_assoc]
        rfl
      · intro hfalse
        rw [hgreeted'] at hfalse
        cases hfalse
      · intro hsilent
        rw [hopened] at hsilent
        cases hsilent

/-! ### The receive loop -/

section

variable (env codec) (s : RlpxSession)

inductive ReceiveStep : RlpxSession → List SessionEvent → Prop
  | outside : s.control.loops .receive ≠ .body → ReceiveStep { s with control := s.control.advance .receive true } []
  | wait : s.control.loops .receive = .body → s.receivePoint = .reading → s.canRead env = false → ReceiveStep s []
  | store {message : Message} : s.control.loops .receive = .body → s.receivePoint = .routed message →
      ReceiveStep
        { s with
          receivePoint := .reading
          recvChannel := s.recvChannel ++ [message]
          control := s.control.advance .receive true } []
  | fail {e : SessionError} {stream : MessageStream} : s.control.loops .receive = .body → s.receivePoint = .reading →
      s.canRead env = true → receiveMessage env codec s.stream = .error e stream →
      ReceiveStep { s with stream, receivePoint := .reading, control := s.control.advance .receive false } []
  | received {message : Message} {stream : MessageStream} : s.control.loops .receive = .body →
    s.receivePoint = .reading →
      s.canRead env = true → receiveMessage env codec s.stream = .ok message stream →
      ReceiveStep { s with stream, receivePoint := .routed message }
        (.received message :: (routeMessage s.handlers message).map .handled)

theorem receiveStep_stepReceive : ReceiveStep env codec s (s.stepReceive env codec).1 (s.stepReceive env codec).2 := by
  unfold stepReceive
  by_cases hbody : s.control.loops .receive = .body
  · rw [if_pos hbody]
    cases hpoint : s.receivePoint with
    | reading =>
        dsimp only
        by_cases hread : s.canRead env = true
        · rw [if_pos hread]
          cases hmessage : receiveMessage env codec s.stream with
          | error e stream => exact .fail hbody hpoint hread hmessage
          | ok message stream => exact .received hbody hpoint hread hmessage
        · rw [if_neg hread]
          exact .wait hbody hpoint (Bool.not_eq_true _ ▸ hread)
    | routed message => exact .store hbody hpoint
  · rw [if_neg hbody]
    exact .outside hbody

end

theorem keepsWriter_receiveStep (h : ReceiveStep env codec s s' evs) : KeepsWriter s s' evs := by
  have hloop (succeeds : Bool) (hexited : s.control.loops .send = .exited) :
      (s.control.advance .receive succeeds).loops .send = .exited := by
    rw [s.control.loops_advance_of_ne (by decide), hexited]
  have hqueue : s.taken ++ s.sendChannel = s.taken ++ s.sendChannel ++ [] := (List.append_nil _).symm
  cases h with
  | outside _ => exact .of_eq rfl rfl (.refl _) rfl (hloop true) hqueue rfl rfl
  | wait _ _ _ => exact .of_eq rfl rfl (.refl _) rfl id hqueue rfl rfl
  | store _ _ => exact .of_eq rfl rfl (.refl _) rfl (hloop true) hqueue rfl rfl
  | fail _ _ _ hmessage => exact .of_eq rfl rfl (.of_receive hmessage) rfl (hloop false) hqueue rfl rfl
  | @received message stream _ _ _ hmessage =>
      obtain ⟨-, -, -, hposted, hsent, -, hgreeted⟩ := received_events message (routeMessage s.handlers message)
      exact .of_eq rfl rfl (.of_receive hmessage) rfl id (by rw [hposted]; exact hqueue) hsent hgreeted

section

variable {handlers : Handlers} {out : Bytes} {arrived : Nat} {pending : List Bytes}

theorem Reader.behind (h : Reader env codec handlers hello start out arrived s es) (hworks : ¬ s.ReadOver)
    (hframed : Framed (CipherHalf.emitFrame env) FrameSized start out (s.hasRead codec hello es ++ pending)) :
    Framed (CipherHalf.emitFrame env) FrameSized s.stream.cipher.ingress s.stream.transport.incoming pending := by
  obtain ⟨hingress, hincoming, -⟩ := h.reading hworks
  rw [hingress]
  exact hframed.behind hincoming

/-- The session after a frame with the content `data`, the peer's next one. -/
theorem Reader.advance (h : Reader env codec handlers hello start out arrived s es) (hworks : ¬ s.ReadOver)
    {data more : Bytes}
    (hin : s.stream.transport.incoming = (s.stream.cipher.ingress.emitFrame env data).1 ++ more) :
    (s.stream.cipher.ingress.emitFrame env data).2 =
        (emitAll (CipherHalf.emitFrame env) start (s.hasRead codec hello es ++ [data])).2 ∧
      framesOf (CipherHalf.emitFrame env) start (s.hasRead codec hello es ++ [data]) ++ more =
        framesOf (CipherHalf.emitFrame env) start (s.hasRead codec hello es) ++ s.stream.transport.incoming := by
  obtain ⟨hingress, -, -⟩ := h.reading hworks
  refine ⟨?_, ?_⟩
  · rw [emitAll_concat, hingress]
  · rw [framesOf_concat, ← hingress, List.append_assoc, hin]

theorem next_of_received {sent : List Message} {message : Message} {stream : MessageStream}
    (hframed : Framed (CipherHalf.emitFrame env) FrameSized s.stream.cipher.ingress s.stream.transport.incoming
      (sent.map (frameData codec)))
    (hmode : s.stream.compressionEnabled = true) (hmessage : receiveMessage env codec s.stream = .ok message stream) :
    ∃ rest more, sent = message :: rest ∧
      s.stream.transport.incoming = (s.stream.cipher.ingress.emitFrame env (frameData codec message)).1 ++ more ∧
      stream = s.stream.advance (s.stream.cipher.ingress.emitFrame env (frameData codec message)).2 more := by
  obtain ⟨data, as, more, hpending, hin, hnext⟩ := received_of_framed hframed hmessage
  obtain ⟨next, rest, rfl, rfl, -⟩ := List.map_eq_cons_iff.mp hpending
  obtain ⟨rfl, rfl⟩ := hnext ⟨next.id, next.payload⟩ (by rw [hmode]; rfl)
  exact ⟨rest, more, rfl, hin, rfl⟩

theorem reader_receiveStep {sent : List Message} (h : Reader env codec handlers hello start out arrived s es)
    (hopened : s.point = .opened)
    (hmode : s.stream.compressionEnabled = true)
    (hframed : Framed (CipherHalf.emitFrame env) FrameSized start out (contents codec hello true sent))
    (hpre : receivedIn es <+: sent) (hstep : ReceiveStep env codec s s' evs) :
    Reader env codec handlers hello start out arrived s' (es ++ evs) ∧ receivedIn (es ++ evs) <+: sent := by
  have hworks (hbody : s.control.loops .receive = .body) : ¬ s.ReadOver :=
    not_over (by simp [hopened]) (by simp [hbody])
  have hkept (hk : KeepsReader s s' evs) :
      Reader env codec handlers hello start out arrived s' (es ++ evs) ∧ receivedIn (es ++ evs) <+: sent := by
    refine ⟨h.keep hk, ?_⟩
    rwa [receivedIn_append, hk.received, List.append_nil]
  cases hstep with
  | outside hbody =>
      refine hkept (.of_eq rfl Iff.rfl ?_ (.refl _) rfl rfl rfl rfl rfl)
      rintro (hfailed | hexited)
      · exact .inl hfailed
      · right
        show (s.control.advance .receive true).loops .receive = .exited
        rw [s.control.advance_of_exited hexited, hexited]
  | wait _ _ _ => exact hkept (.of_eq rfl Iff.rfl id (.refl _) rfl rfl rfl rfl rfl)
  | store hbody hpoint =>
      refine hkept (.of_eq rfl Iff.rfl (fun hover => absurd hover (hworks hbody)) (.refl _) rfl ?_ rfl rfl rfl)
      simp [routed, hpoint, pulledIn]
  | fail hbody hpoint _ _ =>
      have hover : (∃ e, s.point = .failed e) ∨ (s.control.advance .receive false).loops .receive = .exited :=
        .inr (s.control.loops_advance_false hbody)
      refine hkept ⟨rfl, Iff.rfl, fun _ => hover, fun hnot => absurd hover hnot, fun hnot => absurd hover hnot,
        fun hnot => absurd hover hnot, ?_, rfl, rfl, rfl⟩
      simp [routed, hpoint, pulledIn]
  | @received message stream hbody hpoint _ hmessage =>
      replace hworks := hworks hbody
      obtain ⟨hreceived, hhandled, hopens, -, -, hpulled, -⟩ :=
        received_events message (routeMessage s.handlers message)
      obtain ⟨pending, rfl⟩ := hpre
      have hread : s.hasRead codec hello es = contents codec hello true (receivedIn es) := by
        rw [hasRead, decide_eq_true hopened]
      rw [contents_append, ← hread] at hframed
      obtain ⟨rest, more, rfl, hin, rfl⟩ := next_of_received (h.behind hworks hframed) hmode hmessage
      obtain ⟨hingress, hincoming⟩ := h.advance hworks hin
      have hread' : contents codec hello (decide (s.point = .opened)) (receivedIn (es ++ (.received message ::
          (routeMessage s.handlers message).map .handled))) = s.hasRead codec hello es ++
            [frameData codec message] := by
        rw [receivedIn_append, hreceived, contents_append]
        rfl
      obtain ⟨-, hfront, harrived⟩ := h.reading hworks
      refine ⟨⟨h.ownHandlers, fun hnot => absurd hopened hnot, ?_, ?_, ?_, h.bound, ?_⟩, ?_⟩
      · rw [openedIn_append, hopens, List.append_nil]
        exact h.learned
      · rw [receivedIn_append, pulledIn_append, hreceived, hpulled, h.queue]
        simp [routed, hpoint]
      · rw [handledIn_append, receivedIn_append, hhandled, hreceived, h.handled, List.flatMap_append, h.ownHandlers,
          List.flatMap_singleton]
      · intro _
        rw [hasRead, hread']
        refine ⟨hingress, ?_, ?_⟩
        · show framesOf _ _ _ ++ more <+: out
          rw [hincoming]
          exact hfront
        · intro hended
          show framesOf _ _ _ ++ more = _
          rw [hincoming]
          exact harrived hended
      · rw [receivedIn_append, hreceived]
        exact ⟨rest, by rw [List.append_assoc, List.singleton_append]⟩

end

/-! ### Hello -/

theorem handleFirstMessage_hello (hlen : hello.wire.item.encode.length < 2 ^ 64)
    (hversion : kProtocolVersion ≤ hello.protocolVersion)
    (info : SessionInfo) : ∃ info', handleFirstMessage ⟨kHelloMessageId, hello.wire.item.encode⟩ info = .ok info' ∧
      Learned hello info' := by
  have hdecode : HelloMessage.decode hello.wire.item.encode = .ok hello := by
    rw [decode_wire (WireHello.sized_of_length hlen), if_pos ⟨hello.listenPort.isLt, hello.nodeId.size_eq⟩, shown_wire]
  refine ⟨_, ?_, rfl⟩
  unfold handleFirstMessage
  rw [if_pos rfl, hdecode]
  dsimp only
  rw [decide_eq_true hversion, Bool.or_true]

theorem writer_sendHello (h : Writer env codec hello start s es) (hpoint : s.point = .sendHello)
    (hidle : s.control.loops .send = .check) (hlen : hello.wire.item.encode.length < 2 ^ 64) :
    Writer env codec hello start (s.sendHello env codec).1 (es ++ (s.sendHello env codec).2) ∧
      KeepsReader s (s.sendHello env codec).1 (s.sendHello env codec).2 := by
  have hworks : ¬ s.WriteOver := not_over (by simp [hpoint]) (by simp [hidle])
  have hnothing : wroteIn codec hello es = [] := by
    rw [wroteIn, h.silent hpoint, h.greeted (h.silent hpoint)]
    rfl
  have hmode : s.stream.compressionEnabled = false := by
    rw [h.mode.1, hpoint]
    rfl
  have hencode : s.hello.encode = .ok hello.wire.item.encode := by
    rw [h.ownHello]
    exact encode_run (WireHello.sized_of_length hlen)
  obtain ⟨rest, hposted, hrest⟩ := h.queued
  unfold sendHello
  rw [hencode]
  dsimp only
  cases hsend : sendMessage env codec.toSnappy ⟨kHelloMessageId, hello.wire.item.encode⟩ s.stream with
  | error e stream =>
      obtain ⟨hsame, hframed⟩ := framed_of_failed (h.exact hworks) hsend
      have hover : (∃ e', (ConnectPoint.failed e) = .failed e') ∨ s.control.loops .send = .exited := .inl ⟨e, rfl⟩
      refine ⟨?_, ?_⟩
      · rw [List.append_nil]
        refine ⟨h.ownHello, ⟨hsame.trans hmode, h.mode.2.trans hsame.symm⟩,
          ⟨rest, hposted, fun hnot => absurd hover hnot⟩, h.greeted,
          fun _ => h.silent hpoint, by simp, hframed, fun hnot => absurd hover hnot⟩
      · refine .of_eq rfl ?_ ?_ (sameReading_sendMessage hsend) rfl rfl rfl rfl rfl
        · simp [hpoint]
        · exact fun _ => .inl ⟨e, rfl⟩
  | ok u stream =>
      have hdata : messageData codec.toSnappy s.stream.compressionEnabled ⟨kHelloMessageId, hello.wire.item.encode⟩ =
          helloData codec hello := by
        rw [hmode]
        rfl
      obtain ⟨hsame, hexact⟩ := wrote_of_sent (h.exact hworks) hdata hsend
      have hgreeted : hasGreeted (es ++ [.greeted]) = true := by
        rw [hasGreeted_append]
        exact Bool.or_true _
      have hsent : sentIn (es ++ [.greeted]) = [] := by
        rw [sentIn_append, h.greeted (h.silent hpoint)]
        rfl
      have hwrote : wroteIn codec hello (es ++ [.greeted]) = wroteIn codec hello es ++ [helloData codec hello] := by
        rw [hnothing, wroteIn, hgreeted, hsent]
        rfl
      rw [← hwrote] at hexact
      refine ⟨⟨h.ownHello, ⟨hsame.trans hmode, h.mode.2.trans hsame.symm⟩, ⟨rest, ?_, fun _ => hrest hworks⟩,
        fun _ => hsent, ?_,
        fun _ => hgreeted, hexact.framed, fun _ => hexact⟩, ?_⟩
      · rw [hsent, postedIn_append, hposted, h.greeted (h.silent hpoint)]
        exact List.append_nil _
      · intro hfalse
        cases hfalse
      · refine .of_eq rfl ?_ ?_ (sameReading_sendMessage hsend) rfl rfl rfl rfl rfl
        · simp [hpoint]
        · exact fun hover => .inr (hover.resolve_left (by simp [hpoint]))

theorem hello_of_received {sent : List Message} {greeted : Bool} {message : Message} {stream : MessageStream}
    (hframed : Framed (CipherHalf.emitFrame env) FrameSized s.stream.cipher.ingress s.stream.transport.incoming
      (contents codec hello greeted sent))
    (hsent : greeted = false → sent = []) (hmode : s.stream.compressionEnabled = false)
    (hmessage : receiveMessage env codec s.stream = .ok message stream) :
    ∃ more, greeted = true ∧ message = ⟨kHelloMessageId, hello.wire.item.encode⟩ ∧
      s.stream.transport.incoming = (s.stream.cipher.ingress.emitFrame env (helloData codec hello)).1 ++ more ∧
      stream = s.stream.advance (s.stream.cipher.ingress.emitFrame env (helloData codec hello)).2 more := by
  obtain ⟨data, as, more, hpending, hin, hnext⟩ := received_of_framed hframed hmessage
  cases greeted with
  | false =>
      rw [hsent rfl] at hpending
      cases hpending
  | true =>
      obtain rfl : helloData codec hello = data := (List.cons.inj hpending).1
      obtain ⟨rfl, rfl⟩ := hnext ⟨kHelloMessageId, hello.wire.item.encode⟩ (by rw [hmode]; rfl)
      exact ⟨more, rfl, rfl, hin, rfl⟩

theorem receiveHello_step {handlers : Handlers} {peerHello : HelloMessage} {peerStart : CipherHalf} {out : Bytes}
    {arrived : Nat}
    {sent : List Message} {greeted : Bool} (hw : Writer env codec hello start s es)
    (hr : Reader env codec handlers peerHello peerStart out arrived s es) (hpoint : s.point = .awaitHello)
    (hidle : s.control.loops .receive = .check) (hlen : peerHello.wire.item.encode.length < 2 ^ 64)
    (hversion : kProtocolVersion ≤ peerHello.protocolVersion)
    (hframed : Framed (CipherHalf.emitFrame env) FrameSized peerStart out (contents codec peerHello greeted sent))
    (hsent : greeted = false → sent = []) :
    Writer env codec hello start (s.receiveHello env codec).1 (es ++ (s.receiveHello env codec).2) ∧
      Reader env codec handlers peerHello peerStart out arrived (s.receiveHello env codec).1
        (es ++ (s.receiveHello env codec).2) ∧
      receivedIn (es ++ (s.receiveHello env codec).2) = [] ∧
        ((s.receiveHello env codec).1.point = .opened → greeted = true) := by
  have hquiet : receivedIn es = [] := hr.quiet (by simp [hpoint])
  have hgreeted : hasGreeted es = true := hw.greets (.inl hpoint)
  have hmode : s.stream.compressionEnabled = false := by
    rw [hw.mode.1, hpoint]
    rfl
  obtain ⟨rest, hposted, hrest⟩ := hw.queued
  unfold receiveHello
  by_cases hread : s.canRead env = true
  · rw [if_pos hread]
    cases hmessage : receiveMessage env codec s.stream with
    | error e stream =>
        have hstream : SameWriting s.stream stream := .of_receive hmessage
        have hover {p : Prop} : (∃ e', (ConnectPoint.failed e) = .failed e') ∨ p := .inl ⟨e, rfl⟩
        simp only [List.append_nil]
        refine ⟨⟨hw.ownHello, ⟨hstream.mode.trans hmode, hw.mode.2.trans hstream.mode.symm⟩,
          ⟨rest, hposted, fun hnot => absurd hover hnot⟩, hw.greeted, by simp, by simp, ?_,
          fun hnot => absurd hover hnot⟩, ?_, hquiet, by simp⟩
        · rw [hstream.outgoing]
          exact hw.framed
        · exact ⟨hr.ownHandlers, fun _ => hquiet, hr.learned, hr.queue, hr.handled, hr.bound,
            fun hnot => absurd hover hnot⟩
    | ok message stream =>
        have hstream : SameWriting s.stream stream := .of_receive hmessage
        have hworks : ¬ s.ReadOver := not_over (by simp [hpoint]) (by simp [hidle])
        have hnothing : s.hasRead codec peerHello es = [] := by
          rw [hasRead, hquiet, hpoint]
          rfl
        obtain ⟨more, rfl, rfl, hin, rfl⟩ := hello_of_received (hr.behind hworks (by rw [hnothing]; exact hframed))
          hsent hmode hmessage
        obtain ⟨info, hfirst, hlearned⟩ := handleFirstMessage_hello hlen hversion s.info
        have hinfo : info.compressionEnabled = true := by rw [hlearned]
        obtain ⟨hingress, hincoming⟩ := hr.advance hworks hin
        obtain ⟨-, hfront, harrived⟩ := hr.reading hworks
        dsimp only
        rw [hfirst]
        dsimp only
        have hgreeted' : hasGreeted (es ++ [.opened info]) = true := by
          rw [hasGreeted_append, hgreeted]
          rfl
        have hsent' : sentIn (es ++ [.opened info]) = sentIn es := by
          rw [sentIn_append]
          exact List.append_nil _
        have hwrote : wroteIn codec hello (es ++ [.opened info]) = wroteIn codec hello es := by
          rw [wroteIn, hgreeted', hsent', wroteIn, hgreeted]
        have hreceived : receivedIn (es ++ [.opened info]) = [] := by
          rw [receivedIn_append, hquiet]
          rfl
        refine ⟨⟨hw.ownHello, ⟨hinfo, rfl⟩, ⟨rest, ?_, ?_⟩, ?_, by simp, fun _ => hgreeted', ?_, ?_⟩,
          ⟨hr.ownHandlers, fun hnot => absurd rfl hnot, ?_, ?_, ?_, hr.bound, ?_⟩, hreceived, fun _ => rfl⟩
        · rw [postedIn_append, hsent', hposted]
          exact List.append_nil _
        · intro hnot
          exact hrest fun hover => hnot (.inr (hover.resolve_left (by simp [hpoint])))
        · intro hfalse
          rw [hgreeted'] at hfalse
          cases hfalse
        · rw [hwrote]
          exact hw.framed
        · intro hnot
          rw [hwrote]
          exact (hw.exact fun hover => hnot (.inr (hover.resolve_left (by simp [hpoint])))).of_eq rfl rfl
        · intro info' hmem
          rw [openedIn_append] at hmem
          rcases List.mem_append.mp hmem with hold | hnew
          · exact hr.learned info' hold
          · cases List.mem_singleton.mp hnew
            exact hlearned
        · rw [hreceived, pulledIn_append, ← hquiet, hr.queue, List.append_assoc]
          rfl
        · rw [hreceived, handledIn_append, hr.handled, hquiet]
          rfl
        · intro _
          have hread' : contents codec peerHello (decide (ConnectPoint.opened = .opened))
              (receivedIn (es ++ [.opened info])) =
              s.hasRead codec peerHello es ++ [helloData codec peerHello] := by
            rw [hreceived, hnothing]
            rfl
          rw [hasRead, hread']
          refine ⟨hingress, ?_, ?_⟩
          · show framesOf _ _ _ ++ more <+: out
            rw [hincoming]
            exact hfront
          · intro hended
            show framesOf _ _ _ ++ more = _
            rw [hincoming]
            exact harrived hended
  · rw [if_neg hread]
    simp only [List.append_nil]
    refine ⟨hw, hr, hquiet, ?_⟩
    intro hopened
    rw [hpoint] at hopened
    cases hopened

/-! ### All of it -/

theorem outgoing_isPrefix_step (s : RlpxSession) (a : EndAction) :
    s.stream.transport.outgoing <+: (s.step env codec a).1.stream.transport.outgoing := by
  cases a with
  | connect =>
      unfold step stepConnect
      cases hpoint : s.point with
      | sendHello =>
          dsimp only
          unfold sendHello
          cases s.hello.encode with
          | error _ => exact List.prefix_rfl
          | ok payload =>
              dsimp only
              cases hsend : sendMessage env codec.toSnappy ⟨kHelloMessageId, payload⟩ s.stream with
              | error e stream => exact outgoing_isPrefix_of_send hsend
              | ok u stream => exact outgoing_isPrefix_of_send hsend
      | awaitHello =>
          dsimp only
          unfold receiveHello
          split_ifs
          · cases hmessage : receiveMessage env codec s.stream with
            | error e stream => exact (SameWriting.of_receive hmessage).outgoing ▸ List.prefix_rfl
            | ok message stream =>
                dsimp only
                cases handleFirstMessage message s.info <;>
                  exact (SameWriting.of_receive hmessage).outgoing ▸ List.prefix_rfl
          · exact List.prefix_rfl
      | opened => exact List.prefix_rfl
      | failed e => exact List.prefix_rfl
  | use use =>
      unfold step
      split_ifs
      · cases use with
        | call i call => exact (keeps_beginCall i call s).1.outgoing ▸ List.prefix_rfl
        | finish i => exact (keeps_finishCall i s).1.outgoing ▸ List.prefix_rfl
        | disconnect i spurious => exact (keeps_stepDisconnect i spurious s).1.outgoing ▸ List.prefix_rfl
        | send timerOk => exact outgoing_isPrefix_sendStep (sendStep_stepSend env codec s timerOk)
        | receive => exact (keepsWriter_receiveStep (receiveStep_stepReceive env codec s)).outgoing ▸ List.prefix_rfl
      · exact List.prefix_rfl
  | cut keep error => exact List.prefix_rfl
  | breakWrites limit error => exact List.prefix_rfl

/-- Before `connect` returns, nothing has looked at the state. -/
def Idle (s : RlpxSession) : Prop := s.point ≠ .opened → s.control = .start .kUninitialized

theorem idle_step (h : s.Idle) (a : EndAction) : (s.step env codec a).1.Idle := by
  cases a with
  | connect =>
      unfold step stepConnect
      cases hpoint : s.point with
      | sendHello =>
          have hcontrol : (s.sendHello env codec).1.control = s.control := by
            unfold sendHello
            cases s.hello.encode with
            | error _ => rfl
            | ok payload =>
                dsimp only
                cases sendMessage env codec.toSnappy ⟨kHelloMessageId, payload⟩ s.stream <;> rfl
          intro _
          rw [hcontrol]
          exact h (by simp [hpoint])
      | awaitHello =>
          have hcontrol : (s.receiveHello env codec).1.point = .opened ∨
              (s.receiveHello env codec).1.control = s.control := by
            unfold receiveHello
            split_ifs
            · cases receiveMessage env codec s.stream with
              | error e stream => exact .inr rfl
              | ok message stream =>
                  dsimp only
                  cases handleFirstMessage message s.info with
                  | error e => exact .inr rfl
                  | ok info => exact .inl rfl
            · exact .inr rfl
          intro hnot
          rw [hcontrol.resolve_left hnot]
          exact h (by simp [hpoint])
      | opened => exact h
      | failed e => exact h
  | use use =>
      unfold step
      split_ifs with hopened
      · intro hnot
        have hpoint : (s.stepUse env codec use).1.point = s.point := by
          cases use with
          | call i call => exact (keeps_beginCall i call s).1.point
          | finish i => exact (keeps_finishCall i s).1.point
          | disconnect i spurious => exact (keeps_stepDisconnect i spurious s).1.point
          | send timerOk => exact point_sendStep (sendStep_stepSend env codec s timerOk)
          | receive => exact (keepsWriter_receiveStep (receiveStep_stepReceive env codec s)).point
        exact absurd (hpoint.trans hopened) hnot
      · exact h
  | cut keep error => exact h
  | breakWrites limit error => exact h

end RlpxSession

end DevP2P.Rlpx
