import DevP2P.Lib.InOrder
import DevP2P.Lib.Runs
import DevP2P.Rlpx.FrameCipher

/-!
# Two frame ciphers over an ordered transport

The two ends of a session exchange frames in any interleaving; each direction delivers its frames in
order. An end reads a frame with `decrypt_frame`, or with `decrypt_header` and `decrypt_frame_body`.

* `decryptWhole_emit`, `decryptInParts_emit` : a frame read in the state it was written in;
* `Link`, `Action`, `step` : the system;
* `Link.Synced` : both directions are in step;
* `Action.carry` : the same action on a channel that carries the payloads themselves; `advances_step` : every action
  keeps the link in step, and with that channel;
* `frames_delivered` : no call fails, and each read with a frame in flight yields the payload that was sent.
-/

namespace DevP2P.Rlpx
open DevP2P.Lib Stateful

variable (env : RlpxPrimitives)

/-! ## One frame -/

/-- The frame `wire`, read by `decrypt_frame`. -/
def decryptWhole (wire : Bytes) : IngressM Bytes :=
  decryptFrame env {
    headerCiphertext := wire.take kFrameHeaderSize
    headerMac := (wire.drop kFrameHeaderSize).take kMacSize
    frameCiphertext := (wire.drop kFrameHeaderWithMacSize).take
      (wire.length - kFrameHeaderWithMacSize - kMacSize)
    frameMac := wire.drop (wire.length - kMacSize) }

/-- The frame `wire`, read by `decrypt_header`, then by `decrypt_frame_body` on the padded body. -/
def decryptInParts (wire : Bytes) : IngressM Bytes := do
  let fsize ← decryptHeader env (.load _ wire) (.load _ (wire.drop kFrameHeaderSize))
  let paddedSize := fsize + framePadding fsize
  let body := wire.drop kFrameHeaderWithMacSize
  decryptFrameBody env fsize (body.take paddedSize) ((body.drop paddedSize).take kMacSize)

/-- The payloads whose size fits the length field. -/
def SizeFits (data : Bytes) : Prop := 1 ≤ data.length ∧ data.length < 2 ^ 24

variable {env}

theorem SizeFits.frameSized {data : Bytes} (h : SizeFits data) : FrameSized data := by
  refine ⟨List.ne_nil_of_length_pos h.1, ?_⟩
  have := h.2
  show data.length ≤ 16 * 1024 * 1024
  omega

theorem decryptHeader_of_sizeFits {data : Bytes} (hs : SizeFits data) (h : CipherHalf) :
    decryptHeader env (h.emitHeader env (frameHeader data.length)).1.1
        (h.emitHeader env (frameHeader data.length)).1.2 h =
      .ok data.length (h.emitHeader env (frameHeader data.length)).2 := by
  have hmod : data.length % 2 ^ 24 = data.length := Nat.mod_eq_of_lt hs.2
  rw [decryptHeader_emit, hmod, if_neg (Nat.ne_of_gt hs.1)]

theorem frame_pieces (headerCt : FrameHeader) (headerMac frameMac : MacDigest) (frameCt : Bytes) {wire : Bytes}
    (hw : wire = headerCt.bytes ++ headerMac.bytes ++ frameCt ++ frameMac.bytes) :
    wire.length = kFrameHeaderWithMacSize + frameCt.length + kMacSize ∧
      wire.take kFrameHeaderSize = headerCt.bytes ∧
      wire.drop kFrameHeaderSize = headerMac.bytes ++ (frameCt ++ frameMac.bytes) ∧
      wire.drop kFrameHeaderWithMacSize = frameCt ++ frameMac.bytes := by
  have hdrop : wire.drop kFrameHeaderSize = headerMac.bytes ++ (frameCt ++ frameMac.bytes) := by
    rw [hw, List.append_assoc, List.append_assoc]
    exact List.drop_left' headerCt.size_eq
  refine ⟨?_, ?_, hdrop, ?_⟩
  · simp [hw, Nat.add_assoc]
  · rw [hw, List.append_assoc, List.append_assoc]
    exact List.take_left' headerCt.size_eq
  · rw [← List.drop_drop, hdrop]
    exact List.drop_left' headerMac.size_eq

section pieces

variable {headerCt : FrameHeader} {headerMac frameMac : MacDigest} {frameCt wire : Bytes} {n : Nat}
  {h h' : CipherHalf} (hw : wire = headerCt.bytes ++ headerMac.bytes ++ frameCt ++ frameMac.bytes)
  (hheader : decryptHeader env headerCt headerMac h = .ok n h')

include hw hheader

theorem decryptWhole_of_header (hn : n ≤ frameCt.length) :
    decryptWhole env wire h = openBody env n frameCt frameMac.bytes h' := by
  obtain ⟨hlen, htake, hdrop, hbody⟩ := frame_pieces headerCt headerMac frameMac frameCt hw
  have hct : (wire.drop kFrameHeaderWithMacSize).take (wire.length - kFrameHeaderWithMacSize - kMacSize) =
      frameCt := by
    rw [hbody, hlen]
    exact List.take_left' (by omega)
  have hmac : wire.drop (wire.length - kMacSize) = frameMac.bytes := by
    rw [hlen, Nat.add_sub_cancel, ← List.drop_drop, hbody, List.drop_left]
  have hheaderMac : (wire.drop kFrameHeaderSize).take kMacSize = headerMac.bytes := by
    rw [hdrop]
    exact List.take_left' headerMac.size_eq
  unfold decryptWhole decryptFrame
  rw [hct, hmac, hheaderMac, htake, rejectIf_bind_of_not]
  · simp only [FixedBytes.load_bytes]
    rw [bind_of_ok hheader, rejectIf_bind_of_not (Nat.not_lt.mpr hn)]
  · simp

theorem decryptInParts_of_header (hn : frameCt.length = n + framePadding n) :
    decryptInParts env wire h = openBody env n frameCt frameMac.bytes h' := by
  obtain ⟨-, -, hdrop, hbody⟩ := frame_pieces headerCt headerMac frameMac frameCt hw
  have hload : FixedBytes.load kFrameHeaderSize wire = headerCt := by
    rw [hw, List.append_assoc, List.append_assoc]
    exact FixedBytes.load_append headerCt _
  have hmac : (frameMac.bytes).take kMacSize = frameMac.bytes :=
    List.take_of_length_le (Nat.le_of_eq frameMac.size_eq)
  unfold decryptInParts decryptFrameBody
  rw [hload, hdrop, FixedBytes.load_append headerMac, bind_of_ok hheader]
  simp only [hbody, ← hn, List.take_left, List.drop_left, hmac]
  apply rejectIf_bind_of_not
  simp only [FixedBytes.length_bytes]
  omega

end pieces

theorem length_emitBody (h : CipherHalf) (padded : Bytes) :
    (h.emitBody env padded).1.1.length = padded.length :=
  AesCtrState.length_process h.ctr padded

theorem emitFrame_fst (h : CipherHalf) (data : Bytes) :
    (h.emitFrame env data).1 =
      (h.emitHeader env (frameHeader data.length)).1.1.bytes ++
      (h.emitHeader env (frameHeader data.length)).1.2.bytes ++
      ((h.emitHeader env (frameHeader data.length)).2.emitBody env (framePadded data)).1.1 ++
      ((h.emitHeader env (frameHeader data.length)).2.emitBody env (framePadded data)).1.2.bytes := rfl

theorem openBody_framePadded (h : CipherHalf) (data : Bytes) :
    openBody env data.length (h.emitBody env (framePadded data)).1.1
        (h.emitBody env (framePadded data)).1.2.bytes h =
      .ok data (h.emitBody env (framePadded data)).2 := by
  have hopen := @openBody_emit env h data.length (framePadded data) []
  rwa [List.append_nil, take_framePadded] at hopen

theorem decryptWhole_emit {data : Bytes} (hs : SizeFits data) (h : CipherHalf) :
    decryptWhole env (h.emitFrame env data).1 h = .ok data (h.emitFrame env data).2 := by
  refine (decryptWhole_of_header (emitFrame_fst h data) (decryptHeader_of_sizeFits hs h) ?_).trans
    (openBody_framePadded _ data)
  rw [length_emitBody, length_framePadded]
  exact Nat.le_add_right _ _

theorem decryptInParts_emit {data : Bytes} (hs : SizeFits data) (h : CipherHalf) :
    decryptInParts env (h.emitFrame env data).1 h = .ok data (h.emitFrame env data).2 := by
  refine (decryptInParts_of_header (emitFrame_fst h data) (decryptHeader_of_sizeFits hs h) ?_).trans
    (openBody_framePadded _ data)
  rw [length_emitBody, length_framePadded]

/-! ## The system -/

inductive Role
  | initiator
  | responder
deriving DecidableEq

def Role.peer : Role → Role
  | .initiator => .responder
  | .responder => .initiator

@[simp] theorem Role.peer_peer (who : Role) : who.peer.peer = who := by cases who <;> rfl

@[simp] theorem Role.peer_ne (who : Role) : who.peer ≠ who := by cases who <;> decide

@[simp] theorem Role.ne_peer (who : Role) : who ≠ who.peer := by cases who <;> decide

theorem Role.eq_or_eq_peer (who other : Role) : other = who ∨ other = who.peer := by
  cases who <;> cases other <;> decide

theorem Role.forall_of_self_peer {P : Role → Prop} (who : Role) (hself : P who) (hpeer : P who.peer) (other : Role) :
    P other := by
  rcases who.eq_or_eq_peer other with rfl | rfl
  · exact hself
  · exact hpeer

/-- What one end has sent: the payloads, the frames that have not arrived, the payloads read. -/
structure Traffic where
  sent : List Bytes
  inFlight : List Bytes
  received : List Bytes

/-- The ciphers of both ends, and what each end has sent. -/
structure Link where
  cipher : Role → FrameCipher
  traffic : Role → Traffic

inductive ReceiveMode
  | whole
  | inParts
deriving DecidableEq

inductive Action
  | send (who : Role) (payload : Bytes)
  | receive (who : Role) (mode : ReceiveMode)
deriving DecidableEq

variable (env)

def ReceiveMode.read (mode : ReceiveMode) (wire : Bytes) : IngressM Bytes :=
  match mode with
  | .whole => decryptWhole env wire
  | .inParts => decryptInParts env wire

abbrev LinkM := EStateM FramingError Link

/-- A call on the cipher of `who`. -/
def Link.onCipher {α : Type} (who : Role) (x : CipherM α) : LinkM α :=
  Stateful.zoom (fun link => link.cipher who)
    (fun c link => { link with cipher := Function.update link.cipher who c }) x

def Link.setTraffic (who : Role) (t : Traffic) (link : Link) : Link :=
  { link with traffic := Function.update link.traffic who t }

/-- `who` encrypts a payload. -/
def Link.send (who : Role) (payload : Bytes) : LinkM Unit := do
  let wire ← Link.onCipher who (encryptFrame env payload)
  modify fun link => link.setTraffic who
    { link.traffic who with
      sent := (link.traffic who).sent ++ [payload]
      inFlight := (link.traffic who).inFlight ++ [wire] }

/-- `who` reads the first of the frames `frames` in flight to it, if there is one. -/
def Link.receive (who : Role) (mode : ReceiveMode) (frames : List Bytes) : LinkM Unit :=
  match frames with
  | [] => pure ()
  | wire :: rest => do
    let payload ← Link.onCipher who (FrameCipher.onIngress (mode.read env wire))
    modify fun link => link.setTraffic who.peer
      { link.traffic who.peer with
        inFlight := rest
        received := (link.traffic who.peer).received ++ [payload] }

def step : Action → LinkM Unit
  | .send who payload => Link.send env who payload
  | .receive who mode => do
    let link ← get
    Link.receive env who mode (link.traffic who.peer).inFlight

def Link.new (initiator responder : FrameSecrets) : Link where
  cipher
    | .initiator => .new initiator
    | .responder => .new responder
  traffic _ := ⟨[], [], []⟩

/-! ## In step -/

/-- The direction from `who` to its peer. -/
def Link.stream (link : Link) (who : Role) : Stream CipherHalf Bytes Bytes where
  sender := (link.cipher who).egress
  receiver := (link.cipher who.peer).ingress
  sent := (link.traffic who).sent
  inFlight := (link.traffic who).inFlight
  received := (link.traffic who).received

def Link.Synced (link : Link) : Prop :=
  ∀ who, InStep (CipherHalf.emitFrame env) SizeFits (link.stream who)

variable {env}

theorem synced_new {a b : FrameSecrets} (h : Mirrored a b) : (Link.new a b).Synced env := by
  intro who
  have hegress : (FrameCipher.new a).egress = (FrameCipher.new b).ingress := by
    unfold FrameCipher.new
    rw [h.aesSecret, h.macSecret, h.egress]
  have hingress : (FrameCipher.new b).egress = (FrameCipher.new a).ingress := by
    unfold FrameCipher.new
    rw [h.aesSecret, h.macSecret, h.ingress]
  cases who with
  | initiator =>
      show InStep _ _ ⟨(FrameCipher.new a).egress, (FrameCipher.new b).ingress, [], [], []⟩
      rw [hegress]
      exact InStep.start _
  | responder =>
      show InStep _ _ ⟨(FrameCipher.new b).egress, (FrameCipher.new a).ingress, [], [], []⟩
      rw [hingress]
      exact InStep.start _

theorem read_emit {data : Bytes} (hs : SizeFits data) (mode : ReceiveMode) (h : CipherHalf) :
    mode.read env (h.emitFrame env data).1 h = .ok data (h.emitFrame env data).2 := by
  cases mode with
  | whole => exact decryptWhole_emit hs h
  | inParts => exact decryptInParts_emit hs h

/-- What an action adds to the payloads sent by `who`. -/
def Action.sentBy (who : Role) : Action → List Bytes
  | .send sender payload => if who = sender then [payload] else []
  | .receive _ _ => []

/-- The payloads that the peer of `who` has read, and those that wait, when each read takes the first one that waits. -/
def Action.carry (who : Role) (c : List Bytes × List Bytes) : Action → List Bytes × List Bytes
  | .send sender payload => if who = sender then (c.1, c.2 ++ [payload]) else c
  | .receive reader _ => if who = reader then c else (c.1 ++ c.2.take 1, c.2.drop 1)

theorem carry_append (who : Role) (schedule : List Action) (c : List Bytes × List Bytes) :
    (schedule.foldl (Action.carry who) c).1 ++ (schedule.foldl (Action.carry who) c).2 =
      c.1 ++ c.2 ++ schedule.flatMap (Action.sentBy who) := by
  induction schedule generalizing c with
  | nil => exact (List.append_nil _).symm
  | cons a schedule ih =>
      rw [List.foldl_cons, ih, List.flatMap_cons, ← List.append_assoc]
      congr 1
      cases a with
      | send sender payload => by_cases hwho : who = sender <;> simp [Action.carry, Action.sentBy, hwho]
      | receive reader mode =>
          by_cases hwho : who = reader <;> simp [Action.carry, Action.sentBy, hwho, -List.drop_one]

/-- The direction from `who` has carried the payloads `c.1`, and `c.2` are in flight. -/
def Link.Carries (link : Link) (who : Role) (c : List Bytes × List Bytes) : Prop :=
  (link.traffic who).received = c.1 ∧ (link.traffic who).sent = c.1 ++ c.2

/-- An action leads from `link` to `link'`, keeps both directions in step and carries what it should. -/
def Advances (env : RlpxPrimitives) (a : Action) (link link' : Link) : Prop :=
  step env a link = .ok () link' ∧ link'.Synced env ∧
    ∀ who c, link.Carries who c → link'.Carries who (a.carry who c)

theorem advances_send {link : Link} (h : link.Synced env) (who : Role) {payload : Bytes}
    (hs : SizeFits payload) : ∃ link', Advances env (.send who payload) link link' := by
  refine ⟨_, bind_of_ok (zoom_of_ok (encryptFrame_run hs.frameSized _)) _, ?_, ?_⟩
  · intro other
    rcases who.eq_or_eq_peer other with rfl | rfl
    · convert (h other).send hs using 1
      simp [Link.stream, Link.setTraffic]
    · convert h who.peer using 1
      simp [Link.stream, Link.setTraffic]
  · rintro other c ⟨hreceived, hsent⟩
    rcases who.eq_or_eq_peer other with rfl | rfl
    · simp [Link.Carries, Link.setTraffic, Action.carry, hreceived, hsent]
    · simpa [Link.Carries, Link.setTraffic, Action.carry] using ⟨hreceived, hsent⟩

theorem advances_receive {link : Link} (h : link.Synced env) (who : Role) (mode : ReceiveMode) :
    ∃ link', Advances env (.receive who mode) link link' := by
  show ∃ link', Link.receive env who mode (link.traffic who.peer).inFlight link = .ok () link' ∧ _
  cases hq : (link.traffic who.peer).inFlight with
  | nil =>
      refine ⟨link, rfl, h, ?_⟩
      rintro other c ⟨hreceived, hsent⟩
      rcases who.eq_or_eq_peer other with rfl | rfl
      · simpa [Action.carry] using ⟨hreceived, hsent⟩
      · -- as many payloads wait as frames are in flight, none
        have hlen := (h who.peer).length_sent
        simp only [Link.stream, hq, hreceived, hsent, List.length_append, List.length_nil] at hlen
        have hnone : c.2 = [] := List.eq_nil_of_length_eq_zero (by omega)
        simp [Link.Carries, Action.carry, hreceived, hsent, hnone]
  | cons wire rest =>
      obtain ⟨payload, hs, hwire, hstep⟩ := (h who.peer).deliver hq
      have hread : mode.read env wire (link.cipher who).ingress =
          .ok payload ((link.cipher who).ingress.emitFrame env payload).2 := by
        rw [← hwire, Link.stream, Role.peer_peer]
        exact read_emit hs mode _
      have hcall : Link.onCipher who (FrameCipher.onIngress (mode.read env wire)) link = .ok payload _ :=
        zoom_of_ok (zoom_of_ok hread)
      refine ⟨_, bind_of_ok hcall _, ?_, ?_⟩
      · intro other
        rcases who.eq_or_eq_peer other with rfl | rfl
        · convert h other using 1
          simp [Link.stream, Link.setTraffic]
        · convert hstep using 1
          simp [Link.stream, Link.setTraffic]
      · rintro other c ⟨hreceived, hsent⟩
        rcases who.eq_or_eq_peer other with rfl | rfl
        · simpa [Link.Carries, Link.setTraffic, Action.carry] using ⟨hreceived, hsent⟩
        · -- what has been read is the start of what was sent, so this payload is the first that waits
          obtain ⟨waiting, hwaiting⟩ := hstep.received_isPrefix
          simp only [Link.stream, hreceived, hsent, List.append_assoc, List.append_cancel_left_eq] at hwaiting
          simp [Link.Carries, Link.setTraffic, Action.carry, hreceived, hsent, ← hwaiting]

def Action.Fits : Action → Prop
  | .send _ payload => SizeFits payload
  | .receive _ _ => True

theorem advances_step {link : Link} (h : link.Synced env) {a : Action} (ha : a.Fits) :
    ∃ link', Advances env a link link' := by
  cases a with
  | send who payload => exact advances_send h who ha
  | receive who mode => exact advances_receive h who mode

theorem run_schedule {link : Link} (h : link.Synced env) {schedule : List Action}
    (hs : ∀ a ∈ schedule, a.Fits) :
    ∃ link', Steps (step env) (Link.Synced env) link schedule link' ∧
      ∀ who c, link.Carries who c → link'.Carries who (schedule.foldl (Action.carry who) c) := by
  induction schedule generalizing link with
  | nil => exact ⟨link, .nil h, fun _ _ hc => hc⟩
  | cons a schedule ih =>
      obtain ⟨link1, hstep, h1, hcarries1⟩ := advances_step h (hs a (by simp))
      obtain ⟨link', hrun, hcarries⟩ := ih h1 fun b hb => hs b (by simp [hb])
      exact ⟨link', .cons h hstep hrun, fun who c hc => hcarries who _ (hcarries1 who c hc)⟩

/-- **Frames between two ends with matching key material arrive.** In every interleaving of sends and
reads no call fails, every read with a frame in flight yields the first payload that waits, and what each end has read
so far is what the other one sent, in order, up to the frames still in flight. -/
theorem frames_delivered (env : RlpxPrimitives) (uninit uninit' : UninitSecrets) (k k' : AuthKeyMaterial)
    (secret : SharedSecret)
    (hinit : k.initiatorNonce = k'.initiatorNonce) (hrecip : k.recipientNonce = k'.recipientNonce)
    (hauth : k.initiatorAuthMessage = k'.initiatorAuthMessage)
    (hack : k.recipientAckMessage = k'.recipientAckMessage)
    (hk : Ecdh.computeSharedSecret env k.peerEphemeralPublicKey k.localEphemeralPrivateKey = .ok secret)
    (hk' : Ecdh.computeSharedSecret env k'.peerEphemeralPublicKey k'.localEphemeralPrivateKey = .ok secret)
    (schedule : List Action)
    (hs : ∀ who payload, .send who payload ∈ schedule → 1 ≤ payload.length ∧ payload.length ≤ 2 ^ 24 - 1) :
    ∃ link, runAll (step env) schedule
        (.new (deriveFrameSecrets env uninit k true) (deriveFrameSecrets env uninit' k' false)) = .ok () link ∧
      ∀ who, (link.traffic who).sent = schedule.flatMap (Action.sentBy who) ∧
        (link.traffic who).received <+: (link.traffic who).sent ∧
        (link.traffic who).sent.length =
          (link.traffic who).received.length + (link.traffic who).inFlight.length ∧
        (link.traffic who).received = (schedule.foldl (Action.carry who) ([], [])).1 := by
  have hnew : (Link.new (deriveFrameSecrets env uninit k true)
      (deriveFrameSecrets env uninit' k' false)).Synced env := by
    rw [deriveFrameSecrets_of_ok hk, deriveFrameSecrets_of_ok hk']
    exact synced_new (mirrored_keccakChain secret hinit hrecip hauth hack)
  have hfits : ∀ a ∈ schedule, a.Fits := by
    intro a ha
    cases a with
    | send who payload =>
        obtain ⟨h1, h2⟩ := hs who payload ha
        exact ⟨h1, by omega⟩
    | receive who mode => trivial
  obtain ⟨link, hrun, hcarries⟩ := run_schedule hnew hfits
  refine ⟨link, hrun.runAll_eq, fun who => ?_⟩
  obtain ⟨hreceived, hsent⟩ := hcarries who ([], []) ⟨rfl, rfl⟩
  refine ⟨?_, (hrun.inv_end who).received_isPrefix, (hrun.inv_end who).length_sent, hreceived⟩
  rw [hsent, carry_append]
  rfl

def sampleNonce : Nonce := .load _ [1, 2, 3]

/-- The key material of an end whose ephemeral private key is `mine`, its peer's being `theirs`. -/
def sampleKeys (mine theirs : Nat) : AuthKeyMaterial where
  peerPublicKey := .zero _
  peerEphemeralPublicKey := samplePub theirs
  localEphemeralPublicKey := .zero _
  localEphemeralPrivateKey := sampleKey mine
  initiatorNonce := sampleNonce
  recipientNonce := .zero _
  initiatorAuthMessage := [0, 1, 7]
  recipientAckMessage := [0, 1, 9]

theorem frames_delivered_both_ways :
    let schedule : List Action := [.send .initiator [1, 2, 3], .send .responder [4], .receive .responder .whole,
      .receive .responder .inParts, .send .initiator (List.replicate 40 5), .receive .initiator .inParts,
      .receive .responder .inParts]
    ∃ link, runAll (step sampleEnv) schedule
        (.new (deriveFrameSecrets sampleEnv ⟨.zero _, .zero _⟩ (sampleKeys 2 3) true)
          (deriveFrameSecrets sampleEnv ⟨.zero _, .zero _⟩ (sampleKeys 3 2) false)) = .ok () link ∧
      (link.traffic .initiator).received = [[1, 2, 3], List.replicate 40 5] ∧
      (link.traffic .responder).received = [[4]] := by
  intro schedule
  have hk : Ecdh.computeSharedSecret sampleEnv (sampleKeys 2 3).peerEphemeralPublicKey
      (sampleKeys 2 3).localEphemeralPrivateKey =
      .ok (.load _ (beStore 32 0xFFF97BD5755EEEA420453A14355235D382F6472F8568A18B2F057A1460297556)) := by
    decide +kernel
  have hk' : Ecdh.computeSharedSecret sampleEnv (sampleKeys 3 2).peerEphemeralPublicKey
      (sampleKeys 3 2).localEphemeralPrivateKey =
      .ok (.load _ (beStore 32 0xFFF97BD5755EEEA420453A14355235D382F6472F8568A18B2F057A1460297556)) := by
    decide +kernel
  have hsizes : ∀ a ∈ schedule, ∀ who ∈ [Role.initiator, .responder], ∀ payload ∈ a.sentBy who,
      1 ≤ payload.length ∧ payload.length ≤ 2 ^ 24 - 1 := by
    decide
  obtain ⟨link, hrun, hlink⟩ := frames_delivered sampleEnv ⟨.zero _, .zero _⟩ ⟨.zero _, .zero _⟩ (sampleKeys 2 3)
    (sampleKeys 3 2) _ rfl rfl rfl rfl hk hk' schedule fun who payload hmem =>
      hsizes _ hmem who (by cases who <;> decide) payload (by simp [Action.sentBy])
  exact ⟨link, hrun, (hlink .initiator).2.2.2, (hlink .responder).2.2.2⟩

end DevP2P.Rlpx
