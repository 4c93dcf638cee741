import DevP2P.Lib.Framed
import DevP2P.Rlpx.Connection

/-!
# Messages in the bytes that have arrived

* `sendMessage_cases` : a message is written as a whole frame, in part or not at all;
* `fails_readFrame_of_short`, `fails_readFrame_of_largest` : a frame that has not arrived to its end, and one of the
  largest size, are not read;
* `receiveMessage_framed` : a reader in step receives the next message, or fails;
* `not_frameArrived_of_short` : it does not try before the frame has arrived.
-/

namespace DevP2P.Rlpx
open DevP2P.Lib DevP2P.Rlp Stateful

variable {env : RlpxPrimitives}

/-! ## Writing -/

theorem length_emitFrame (h : CipherHalf) (data : Bytes) :
    (h.emitFrame env data).1.length = kFrameHeaderWithMacSize +
      (data.length + framePadding data.length + kMacSize) := by
  rw [(frame_pieces _ _ _ _ (@emitFrame_fst env h data)).1, length_emitBody, length_framePadded, Nat.add_assoc]

theorem emitFrame_ne_nil (h : CipherHalf) (data : Bytes) : (h.emitFrame env data).1 ≠ [] := by
  apply List.ne_nil_of_length_pos
  rw [length_emitFrame]
  exact Nat.add_pos_left (by decide) _

theorem exists_emitFrame_eq (h : CipherHalf) (data : Bytes) :
    ∃ body, (h.emitFrame env data).1 = (h.emitHeader env (frameHeader data.length)).1.1.bytes ++
      ((h.emitHeader env (frameHeader data.length)).1.2.bytes ++ body) :=
  ⟨_, by rw [emitFrame_fst, List.append_assoc, List.append_assoc]⟩

def MessageStream.wrote (s : MessageStream) (egress : CipherHalf) (part : Bytes) (limit : Option Nat) : MessageStream :=
  { s with
    cipher := { s.cipher with egress }
    transport := { s.transport with outgoing := s.transport.outgoing ++ part, writeLimit := limit } }

theorem writeAll_cases (data : Bytes) (t : SocketTransport) :
    (∃ limit, writeAll data t = .ok () { t with outgoing := t.outgoing ++ data, writeLimit := limit }) ∨
    ∃ e part rest limit, rest ≠ [] ∧ part ++ rest = data ∧
      writeAll data t = .error e { t with outgoing := t.outgoing ++ part, writeLimit := limit } := by
  unfold writeAll
  cases hlimit : t.writeLimit with
  | none => exact .inl ⟨none, rfl⟩
  | some limit =>
      dsimp only
      split_ifs with hroom
      · exact .inl ⟨_, rfl⟩
      · refine .inr ⟨_, data.take limit, data.drop limit, _, ?_, List.take_append_drop _ _, rfl⟩
        intro hnil
        have := List.drop_eq_nil_iff.mp hnil
        omega

theorem sendMessage_of_oversized {snappy : Snappy} {params : MessageSendParams} {s : MessageStream}
    (h : kMaxFrameSize < (messageData snappy s.compressionEnabled params).length) :
    sendMessage env snappy params s = .error .kInvalidMessage s := by
  unfold sendMessage
  rw [bind_of_ok (lift_encodeMessageId _ s), get_bind]
  exact rejectIf_bind_of h _ _ _

theorem sendMessage_of_unlimited {snappy : Snappy} {params : MessageSendParams} {s : MessageStream}
    (hlen : (messageData snappy s.compressionEnabled params).length ≤ kMaxFrameSize)
    (hlimit : s.transport.writeLimit = none) :
    ∃ t, sendMessage env snappy params s = .ok () t ∧ t.transport.writeLimit = none := by
  rw [sendMessage_run hlen]
  unfold MessageStream.onTransport Stateful.zoom writeAll
  simp only [hlimit]
  exact ⟨_, rfl, rfl⟩

theorem sendMessage_cases (snappy : Snappy) (params : MessageSendParams) (s : MessageStream) {data : Bytes}
    (hdata : messageData snappy s.compressionEnabled params = data) :
    (∃ e, sendMessage env snappy params s = .error e s) ∨
    (FrameSized data ∧ ∃ limit, sendMessage env snappy params s = .ok ()
      (s.wrote (s.cipher.egress.emitFrame env data).2 (s.cipher.egress.emitFrame env data).1 limit)) ∨
    FrameSized data ∧ ∃ e part rest limit, rest ≠ [] ∧ part ++ rest = (s.cipher.egress.emitFrame env data).1 ∧
      sendMessage env snappy params s = .error e (s.wrote (s.cipher.egress.emitFrame env data).2 part limit) := by
  subst hdata
  rcases Nat.lt_or_ge kMaxFrameSize (messageData snappy s.compressionEnabled params).length with hbig | hfits
  · exact .inl ⟨_, sendMessage_of_oversized hbig⟩
  · have hsized : FrameSized (messageData snappy s.compressionEnabled params) := ⟨messageData_ne_nil _ _, hfits⟩
    rw [sendMessage_run hfits]
    generalize s.cipher.egress.emitFrame env (messageData snappy s.compressionEnabled params) = frame
    unfold MessageStream.onTransport Stateful.zoom
    rcases writeAll_cases frame.1 s.transport with ⟨limit, hwrite⟩ | ⟨e, part, rest, limit, hrest, hpart, hwrite⟩
    · simp only [hwrite]
      exact .inr (.inl ⟨hsized, limit, rfl⟩)
    · simp only [hwrite]
      exact .inr (.inr ⟨hsized, e, part, rest, limit, hrest, hpart, rfl⟩)

/-- Writing leaves alone what is read. -/
structure SameReading (s t : MessageStream) : Prop where
  ingress : t.cipher.ingress = s.cipher.ingress
  incoming : t.transport.incoming = s.transport.incoming

theorem SameReading.refl (s : MessageStream) : SameReading s s := ⟨rfl, rfl⟩

theorem sameReading_wrote (s : MessageStream) (egress : CipherHalf) (part : Bytes) (limit : Option Nat) :
    SameReading s (s.wrote egress part limit) := ⟨rfl, rfl⟩

/-- What was written is the frames for `items`, and the cipher is in the state behind them. -/
structure Wrote (env : RlpxPrimitives) (start : CipherHalf) (s : MessageStream) (items : List Bytes) : Prop where
  outgoing : s.transport.outgoing = framesOf (CipherHalf.emitFrame env) start items
  egress : s.cipher.egress = (emitAll (CipherHalf.emitFrame env) start items).2
  sized : ∀ data ∈ items, FrameSized data

section

variable {start : CipherHalf} {s t : MessageStream} {items : List Bytes} {data : Bytes} {snappy : Snappy}
    {params : MessageSendParams}

theorem Wrote.of_eq (h : Wrote env start s items) (hout : t.transport.outgoing = s.transport.outgoing)
    (hegress : t.cipher.egress = s.cipher.egress) : Wrote env start t items :=
  ⟨hout.trans h.outgoing, hegress.trans h.egress, h.sized⟩

theorem Wrote.framed (h : Wrote env start s items) :
    Framed (CipherHalf.emitFrame env) FrameSized start s.transport.outgoing items := by
  rw [h.outgoing]
  have hbyte : FrameSized [0] := ⟨List.cons_ne_nil _ _, by decide⟩
  exact .complete hbyte (fun t => emitFrame_ne_nil t _) h.sized

theorem wrote_of_sent (h : Wrote env start s items) (hdata : messageData snappy s.compressionEnabled params = data)
    {u : Unit}
    (hsend : sendMessage env snappy params s = .ok u t) :
    t.compressionEnabled = s.compressionEnabled ∧ Wrote env start t (items ++ [data]) := by
  rcases sendMessage_cases snappy params s hdata with ⟨e, hcase⟩ | ⟨hsized, limit, hcase⟩ | ⟨-, e, part, rest,
    limit, -, -, hcase⟩
  · rw [hcase] at hsend
    cases hsend
  · rw [hcase] at hsend
    cases hsend
    refine ⟨rfl, ?_, ?_, ?_⟩
    · rw [framesOf_concat, ← h.outgoing, ← h.egress]
      rfl
    · rw [emitAll_concat, ← h.egress]
      rfl
    · intro content hcontent
      rcases List.mem_append.mp hcontent with hold | hnew
      · exact h.sized content hold
      · rw [List.mem_singleton.mp hnew]
        exact hsized
  · rw [hcase] at hsend
    cases hsend

theorem framed_of_failed (h : Wrote env start s items) {e : SessionError}
    (hsend : sendMessage env snappy params s = .error e t) :
    t.compressionEnabled = s.compressionEnabled ∧
      Framed (CipherHalf.emitFrame env) FrameSized start t.transport.outgoing items := by
  rcases @sendMessage_cases env snappy params s _ rfl with ⟨e', hcase⟩ | ⟨-, limit, hcase⟩ | ⟨hsized, e', part, rest,
    limit, hne, hpart, hcase⟩
  · rw [hcase] at hsend
    cases hsend
    exact ⟨rfl, h.framed⟩
  · rw [hcase] at hsend
    cases hsend
  · rw [hcase] at hsend
    cases hsend
    refine ⟨rfl, ?_⟩
    rw [MessageStream.wrote, h.outgoing]
    rw [h.egress] at hpart
    exact .partly hsized hne hpart h.sized

theorem outgoing_isPrefix_of_send {r : EStateM.Result SessionError MessageStream Unit}
    (hsend : sendMessage env snappy params s = r) :
    s.transport.outgoing <+: (finalState r).transport.outgoing := by
  subst hsend
  rcases @sendMessage_cases env snappy params s _ rfl with ⟨e, h⟩ | ⟨-, limit, h⟩ | ⟨-, e, part, rest, limit, -, -, h⟩
  · rw [h]
    exact List.prefix_rfl
  · rw [h]
    exact List.prefix_append _ _
  · rw [h]
    exact List.prefix_append _ _

theorem sameReading_sendMessage {r : EStateM.Result SessionError MessageStream Unit}
    (hsend : sendMessage env snappy params s = r) :
    SameReading s (finalState r) := by
  subst hsend
  rcases @sendMessage_cases env snappy params s _ rfl with ⟨e, h⟩ | ⟨-, limit, h⟩ | ⟨-, e, part, rest, limit, -, -, h⟩
  · rw [h]
    exact .refl _
  · rw [h]
    exact sameReading_wrote _ _ _ _
  · rw [h]
    exact sameReading_wrote _ _ _ _

end

/-! ## Reading -/

def Fails {σ α : Type} (x : EStateM SessionError σ α) (s : σ) : Prop := ∃ e t, x s = .error e t

theorem Fails.bind {σ α β : Type} {x : EStateM SessionError σ α} {s : σ} (h : Fails x s)
    (f : α → EStateM SessionError σ β) :
    Fails (x >>= f) s := by
  obtain ⟨e, t, h⟩ := h
  exact ⟨e, t, bind_of_error h f⟩

theorem Fails.of_bind {σ α β : Type} {x : EStateM SessionError σ α} {s t : σ} {a : α} (hx : x s = .ok a t)
    {f : α → EStateM SessionError σ β} (h : Fails (f a) t) : Fails (x >>= f) s := by
  obtain ⟨e, u, h⟩ := h
  exact ⟨e, u, by rw [bind_of_ok hx, h]⟩

theorem fails_readExact {s : MessageStream} {n : Nat} (h : s.transport.incoming.length < n) :
    Fails (MessageStream.onTransport (readExact n)) s := by
  unfold Fails MessageStream.onTransport Stateful.zoom readExact
  rw [if_neg (Nat.not_le.mpr h)]
  exact ⟨_, _, rfl⟩

theorem fails_onIngress {α : Type} {x : IngressM α} {s : MessageStream} {h h' : CipherHalf} {e : FramingError}
    (hx : x h = .error e h')
    (b : Bytes) : Fails (MessageStream.onIngress x) (s.advance h b) := by
  have hcipher : x (s.advance h b).cipher.ingress = .error e h' := hx
  unfold Fails MessageStream.onIngress MessageStream.onCipher FrameCipher.onIngress withError Stateful.zoom
  simp only [hcipher]
  exact ⟨_, _, rfl⟩

/-- Reading leaves alone what is written. -/
structure SameWriting (s t : MessageStream) : Prop where
  egress : t.cipher.egress = s.cipher.egress
  outgoing : t.transport.outgoing = s.transport.outgoing
  mode : t.compressionEnabled = s.compressionEnabled
  writeLimit : t.transport.writeLimit = s.transport.writeLimit

theorem SameWriting.refl (s : MessageStream) : SameWriting s s := ⟨rfl, rfl, rfl, rfl⟩

theorem sameWriting_readExact (s : MessageStream) (n : Nat) :
    Stateful.Maintains (SameWriting s) (MessageStream.onTransport (readExact n)) := by
  intro t h
  unfold MessageStream.onTransport Stateful.zoom readExact
  split_ifs
  · exact ⟨h.egress, h.outgoing, h.mode, h.writeLimit⟩
  · exact ⟨h.egress, h.outgoing, h.mode, h.writeLimit⟩

theorem sameWriting_onIngress {α : Type} (s : MessageStream) (x : IngressM α) :
    Stateful.Maintains (SameWriting s) (MessageStream.onIngress x) := by
  intro t h
  unfold MessageStream.onIngress MessageStream.onCipher FrameCipher.onIngress withError Stateful.zoom
  cases hx : x t.cipher.ingress with
  | ok a h' =>
      simp only [hx]
      exact ⟨h.egress, h.outgoing, h.mode, h.writeLimit⟩
  | error e h' =>
      simp only [hx]
      exact ⟨h.egress, h.outgoing, h.mode, h.writeLimit⟩

theorem sameWriting_receiveMessage (codec : SnappyCodec) (s : MessageStream) :
    Stateful.Maintains (SameWriting s) (receiveMessage env codec) := by
  have hframe : Stateful.Maintains (SameWriting s) (readFrame env) := by
    refine .bind (sameWriting_readExact s _) fun _ => .bind (sameWriting_onIngress s _) fun _ => ?_
    exact .bind (sameWriting_readExact s _) fun _ => sameWriting_onIngress s _
  refine .bind ?_ fun frame => .bind (.rejectIf _ _) fun _ => .bind .get fun _ => .lift _
  intro t h
  have hread := hframe t h
  unfold receiveFrame
  cases hx : readFrame env t with
  | ok frame u =>
      rw [hx] at hread
      exact hread
  | error e u =>
      rw [hx] at hread
      exact hread

theorem SameWriting.of_receive {codec : SnappyCodec} {s : MessageStream}
    {r : EStateM.Result SessionError MessageStream Message}
    (h : receiveMessage env codec s = r) : SameWriting s (finalState r) :=
  h ▸ sameWriting_receiveMessage codec s s (.refl _)

/-- The bytes of a header, and what `decrypt_header` makes of them. -/
theorem header_of_frame {s : MessageStream} {data rest : Bytes}
    (hin : s.transport.incoming ++ rest = (s.cipher.ingress.emitFrame env data).1)
    (hlen : kFrameHeaderWithMacSize ≤ s.transport.incoming.length) :
    ∃ header body, header.length = kFrameHeaderWithMacSize ∧ s.transport.incoming = header ++ body ∧
      body.length + rest.length = data.length + framePadding data.length + kMacSize ∧
      (∀ more, decryptHeader env (.load _ (header ++ more)) (.load _ ((header ++ more).drop kFrameHeaderSize))
        s.cipher.ingress =
        if data.length % 2 ^ 24 = 0 then
          .error .kInvalidFrameSize (s.cipher.ingress.emitHeader env (frameHeader data.length)).2
        else .ok (data.length % 2 ^ 24) (s.cipher.ingress.emitHeader env (frameHeader data.length)).2) := by
  set h := s.cipher.ingress with hh
  have htotal := congrArg List.length hin
  rw [List.length_append, length_emitFrame] at htotal
  have hfront : s.transport.incoming.take kFrameHeaderWithMacSize =
      (h.emitHeader env (frameHeader data.length)).1.1.bytes ++
        (h.emitHeader env (frameHeader data.length)).1.2.bytes := by
    have hwhole : (s.transport.incoming ++ rest).take kFrameHeaderWithMacSize = _ := List.take_append_of_le_length hlen
    rw [← hwhole, hin, emitFrame_fst, List.append_assoc]
    exact List.take_left' (by simp)
  refine ⟨s.transport.incoming.take kFrameHeaderWithMacSize, s.transport.incoming.drop kFrameHeaderWithMacSize,
    List.length_take_of_le hlen, (List.take_append_drop _ _).symm, ?_, ?_⟩
  · rw [List.length_drop]
    omega
  · intro more
    rw [hfront, List.append_assoc, List.drop_left' (FixedBytes.size_eq _), FixedBytes.load_append,
      FixedBytes.load_append]
    exact decryptHeader_emit h data.length

theorem fails_receiveMessage {codec : SnappyCodec} {s : MessageStream} (h : Fails (readFrame env) s) :
    Fails (receiveMessage env codec) s := by
  obtain ⟨e, t, h⟩ := h
  have hframe : receiveFrame env s = .ok [] t := by
    unfold receiveFrame
    rw [h]
  unfold receiveMessage
  refine .of_bind hframe ?_
  exact ⟨_, _, rejectIf_bind_of rfl _ _ _⟩

theorem fails_readFrame_of_short {s : MessageStream} {data rest : Bytes} (hrest : rest ≠ [])
    (hin : s.transport.incoming ++ rest = (s.cipher.ingress.emitFrame env data).1) (hsized : FrameSized data) :
    Fails (readFrame env) s := by
  unfold readFrame
  rcases Nat.lt_or_ge s.transport.incoming.length kFrameHeaderWithMacSize with hshort | hlen
  · exact (fails_readExact hshort).bind _
  obtain ⟨header, body, hheader, hsplit, hbody, hdecrypt⟩ := header_of_frame hin hlen
  have hsize := hdecrypt []
  rw [List.append_nil] at hsize
  refine .of_bind (onTransport_readExact hheader hsplit) ?_
  by_cases hzero : data.length % 2 ^ 24 = 0
  · rw [if_pos hzero] at hsize
    exact (fails_onIngress hsize body).bind _
  · rw [if_neg hzero] at hsize
    refine .of_bind (onIngress_run hsize s body) (Fails.bind (fails_readExact ?_) _)
    have hmod : data.length % 2 ^ 24 = data.length := by
      have hle : data.length ≤ 2 ^ 24 := hsized.2
      omega
    have := List.length_pos_iff.mpr hrest
    show body.length < _
    rw [hmod]
    omega

theorem fails_readFrame_of_largest {s : MessageStream} {data rest : Bytes} (hlen : data.length = 2 ^ 24)
    (hin : s.transport.incoming = (s.cipher.ingress.emitFrame env data).1 ++ rest) : Fails (readFrame env) s := by
  obtain ⟨body, hframe⟩ := @exists_emitFrame_eq env s.cipher.ingress data
  rw [hframe, List.append_assoc, List.append_assoc, ← List.append_assoc] at hin
  have hdecrypt := @decryptHeader_emit env s.cipher.ingress data.length
  rw [hlen, Nat.mod_self, if_pos rfl, ← hlen] at hdecrypt
  unfold readFrame
  refine .of_bind (onTransport_readExact (by simp) hin) ?_
  rw [FixedBytes.load_append, List.drop_left' (FixedBytes.size_eq _), FixedBytes.load_bytes]
  exact (fails_onIngress hdecrypt _).bind _

/-- **A reader in step receives the next message, or fails.** -/
theorem receiveMessage_framed {codec : SnappyCodec} {s : MessageStream} {pending : List Bytes}
    (h : Framed (CipherHalf.emitFrame env) FrameSized s.cipher.ingress s.transport.incoming pending) :
    Fails (receiveMessage env codec) s ∨
    ∃ data as more, pending = data :: as ∧ s.transport.incoming = (s.cipher.ingress.emitFrame env data).1 ++ more ∧
      SizeFits data ∧
      Framed (CipherHalf.emitFrame env) FrameSized (s.cipher.ingress.emitFrame env data).2 more as := by
  rcases h.next with ⟨data, as, more, rfl, hsized, hin, hmore⟩ | ⟨data, rest, hsized, hrest, hin⟩
  · rcases Nat.lt_or_ge data.length (2 ^ 24) with hfits | hbig
    · exact .inr ⟨data, as, more, rfl, hin, ⟨List.length_pos_iff.mpr hsized.1, hfits⟩, hmore⟩
    · have hmax : data.length ≤ 2 ^ 24 := hsized.2
      exact .inl (fails_receiveMessage (fails_readFrame_of_largest (Nat.le_antisymm hmax hbig) hin))
  · exact .inl (fails_receiveMessage (fails_readFrame_of_short hrest hin hsized))

theorem received_of_framed {codec : SnappyCodec} {s t : MessageStream} {pending : List Bytes} {message : Message}
    (h : Framed (CipherHalf.emitFrame env) FrameSized s.cipher.ingress s.transport.incoming pending)
    (hmessage : receiveMessage env codec s = .ok message t) :
    ∃ data as more, pending = data :: as ∧ s.transport.incoming = (s.cipher.ingress.emitFrame env data).1 ++ more ∧
      ∀ params : MessageSendParams, messageData codec.toSnappy s.compressionEnabled params = data →
        message = ⟨params.messageId, params.payload⟩ ∧ t = s.advance (s.cipher.ingress.emitFrame env data).2 more := by
  rcases @receiveMessage_framed env codec _ _ h with ⟨e, u, hfails⟩ | ⟨data, as, more, rfl, hin, hfits, -⟩
  · rw [hmessage] at hfails
    cases hfails
  · refine ⟨data, as, more, rfl, hin, ?_⟩
    rintro params rfl
    have hreceive := hmessage.symm.trans (receiveMessage_emit hfits.2 hin)
    cases hreceive
    exact ⟨rfl, rfl⟩

theorem not_frameArrived_of_short {s : MessageStream} {data rest : Bytes} (hrest : rest ≠ []) (hfits : SizeFits data)
    (hin : s.transport.incoming ++ rest = (s.cipher.ingress.emitFrame env data).1) : s.frameArrived env = false := by
  unfold MessageStream.frameArrived
  rcases Nat.lt_or_ge s.transport.incoming.length kFrameHeaderWithMacSize with hshort | hlen
  · rw [decide_eq_false (Nat.not_le.mpr hshort), Bool.false_and]
  obtain ⟨header, body, hheader, hsplit, hbody, hdecrypt⟩ := header_of_frame hin hlen
  have hmod : data.length % 2 ^ 24 = data.length := Nat.mod_eq_of_lt hfits.2
  have hpos := hfits.1
  have hsize := hdecrypt body
  rw [if_neg (by omega), ← hsplit, hmod] at hsize
  have := List.length_pos_iff.mpr hrest
  have hincoming : s.transport.incoming.length = header.length + body.length := by rw [hsplit, List.length_append]
  rw [decide_eq_true hlen, Bool.true_and, hsize]
  dsimp only
  rw [decide_eq_false (by omega)]

theorem frame_of_frameArrived {s : MessageStream} {pending : List Bytes} {rest : Bytes}
    (harrived : s.frameArrived env = true)
    (hfits : ∀ data ∈ pending, SizeFits data) (hin : s.transport.incoming ++ rest =
      framesOf (CipherHalf.emitFrame env) s.cipher.ingress pending) :
    ∃ data as more, pending = data :: as ∧ s.transport.incoming = (s.cipher.ingress.emitFrame env data).1 ++ more := by
  cases pending with
  | nil =>
      have hnil : s.transport.incoming = [] := (List.append_eq_nil_iff.mp hin).1
      unfold MessageStream.frameArrived at harrived
      rw [hnil] at harrived
      cases harrived
  | cons data as =>
      rw [framesOf_cons] at hin
      rcases List.append_eq_append_iff.mp hin with ⟨part, hframe, -⟩ | ⟨more, hframe, -⟩
      · cases part with
        | nil => exact ⟨data, as, [], rfl, by rw [hframe, List.append_nil, List.append_nil]⟩
        | cons x part =>
            rw [not_frameArrived_of_short (List.cons_ne_nil x part) (hfits data List.mem_cons_self)
              hframe.symm] at harrived
            cases harrived
      · exact ⟨data, as, more, rfl, hframe⟩

end DevP2P.Rlpx
