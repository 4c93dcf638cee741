import DevP2P.Lib.Runs
import Mathlib.Logic.Function.Basic

/-!
# The state of a session (`rlpx/rlpx_session.cpp`)

One atomic word holds the state of a session. `disconnect` loads it, exchanges it for `kDisconnecting` and stores
`kClosed`; the two loops look at it before every round and store `kError` when a round fails.

* `Session`, `SessionAction`, `Session.step` : the word, the program points of the calls and of the loops, one step;
* `Move`, `move_step` : what a step can do;
* `Guarded` : what the program points say about the word; `guarded_move`, `state_move` : one step, `state_run` : a run;
* `terminal_states_final_iff` : a terminal state is final exactly in the runs that do not have both kinds of stores.
-/

namespace DevP2P.Rlpx
open DevP2P.Lib

inductive SessionState
  | kUninitialized
  | kConnecting
  | kAuthenticating
  | kHandshaking
  | kActive
  | kDisconnecting
  | kClosed
  | kError
deriving DecidableEq

namespace SessionState

/-- `is_terminal_state`. -/
def IsTerminal (s : SessionState) : Prop := s = .kClosed ∨ s = .kError

/-- The states in which `disconnect` has nothing to do. -/
def EndsDisconnect (s : SessionState) : Prop := s = .kDisconnecting ∨ s = .kClosed ∨ s = .kError

instance (s : SessionState) : Decidable s.IsTerminal := inferInstanceAs (Decidable (_ ∨ _))

instance (s : SessionState) : Decidable s.EndsDisconnect := inferInstanceAs (Decidable (_ ∨ _ ∨ _))

theorem IsTerminal.endsDisconnect {s : SessionState} (h : s.IsTerminal) : s.EndsDisconnect := .inr h

end SessionState

/-- Where a call of `disconnect` is; `exchange expected` is the loop of the compare-exchange. -/
inductive DisconnectPoint
  | load
  | exchange (expected : SessionState)
  | store
  | close
  | returned
deriving DecidableEq

inductive SessionLoop
  | send
  | receive
deriving DecidableEq

/-- Where a loop is: in front of its condition, in its body, or behind it. -/
inductive LoopPoint
  | check
  | body
  | exited
deriving DecidableEq

/-- A session: its state, the calls of `disconnect` by number, the two loops. -/
structure Session where
  state : SessionState
  callers : Nat → DisconnectPoint
  loops : SessionLoop → LoopPoint

inductive SessionAction
  /-- The next step of a call of `disconnect`; a weak compare-exchange may fail without a reason. -/
  | disconnect (call : Nat) (spurious : Bool)
  /-- The next step of a loop; a round succeeds, or fails as when the stream was closed. -/
  | loop (which : SessionLoop) (succeeds : Bool)
deriving DecidableEq

inductive StateWrite
  | exchange
  | close
  | fail
deriving DecidableEq

namespace Session

/-- No call has begun, and the loops have not looked at the state. -/
def start (state : SessionState) : Session := ⟨state, fun _ => .load, fun _ => .check⟩

def moveCaller (s : Session) (i : Nat) (p : DisconnectPoint) : Session :=
  { s with callers := Function.update s.callers i p }

def moveLoop (s : Session) (l : SessionLoop) (p : LoopPoint) : Session :=
  { s with loops := Function.update s.loops l p }

/-- Where `disconnect` goes once it knows the current state. -/
def afterLoad (current : SessionState) : DisconnectPoint :=
  if current.EndsDisconnect then .returned else .exchange current

/-- The next step of `disconnect`, by its program point. -/
def stepDisconnect (s : Session) (i : Nat) (spurious : Bool) : DisconnectPoint → Session × List StateWrite
  | .load => (s.moveCaller i (afterLoad s.state), [])
  | .exchange expected =>
    if s.state = expected ∧ spurious = false then
      (({ s with state := .kDisconnecting } : Session).moveCaller i .store, [.exchange])
    else
      -- the failed exchange has loaded the state
      (s.moveCaller i (afterLoad s.state), [])
  | .store => (({ s with state := .kClosed } : Session).moveCaller i .close, [.close])
  | .close => (s.moveCaller i .returned, [])
  | .returned => (s, [])

/-- The next step of a loop, by its program point; a failing round ends in `force_error_state`. -/
def stepLoop (s : Session) (l : SessionLoop) (succeeds : Bool) : LoopPoint → Session × List StateWrite
  | .check => (s.moveLoop l (if s.state = .kActive then .body else .exited), [])
  | .body =>
    if succeeds then (s.moveLoop l .check, [])
    else (({ s with state := .kError } : Session).moveLoop l .exited, [.fail])
  | .exited => (s, [])

def step (s : Session) : SessionAction → Session × List StateWrite
  | .disconnect i spurious => s.stepDisconnect i spurious (s.callers i)
  | .loop l succeeds => s.stepLoop l succeeds (s.loops l)

/-- The session after the actions, in any interleaving of the calls and the loops. -/
def after (state : SessionState) (actions : List SessionAction) : Session :=
  (runEffects step (start state) actions).1

def writes (state : SessionState) (actions : List SessionAction) : List StateWrite :=
  (runEffects step (start state) actions).2

end Session

open Session

/-! ## One step -/

/-- What a step can do. -/
inductive Move (s : Session) : Session → List StateWrite → Prop
  | idle : Move s s []
  | caller (i : Nat) (p : DisconnectPoint) (hstore : p ≠ .store) (hexpected : ∀ e, p = .exchange e →
    ¬ e.EndsDisconnect) :
      Move s (s.moveCaller i p) []
  | exchange (i : Nat) (h : s.callers i = .exchange s.state) :
      Move s (({ s with state := .kDisconnecting } : Session).moveCaller i .store) [.exchange]
  | close (i : Nat) (h : s.callers i = .store) :
      Move s (({ s with state := .kClosed } : Session).moveCaller i .close) [.close]
  | loop (l : SessionLoop) (p : LoopPoint) (h : p = .body → s.state = .kActive) : Move s (s.moveLoop l p) []
  | fail (l : SessionLoop) (h : s.loops l = .body) :
      Move s (({ s with state := .kError } : Session).moveLoop l .exited) [.fail]

theorem move_afterLoad (s : Session) (i : Nat) : Move s (s.moveCaller i (afterLoad s.state)) [] := by
  unfold afterLoad
  split_ifs with h
  · exact .caller i .returned nofun nofun
  · refine .caller i (.exchange s.state) nofun ?_
    intro e he
    rwa [← DisconnectPoint.exchange.inj he]

theorem move_step (s : Session) (a : SessionAction) : Move s (s.step a).1 (s.step a).2 := by
  cases a with
  | disconnect i spurious =>
      show Move s (s.stepDisconnect i spurious (s.callers i)).1 (s.stepDisconnect i spurious (s.callers i)).2
      cases hp : s.callers i with
      | load => exact move_afterLoad s i
      | exchange expected =>
          simp only [stepDisconnect]
          split_ifs with h
          · rw [← h.1] at hp
            exact .exchange i hp
          · exact move_afterLoad s i
      | store => exact .close i hp
      | close => exact .caller i .returned nofun nofun
      | returned => exact .idle
  | loop l succeeds =>
      show Move s (s.stepLoop l succeeds (s.loops l)).1 (s.stepLoop l succeeds (s.loops l)).2
      cases hp : s.loops l with
      | check =>
          simp only [stepLoop]
          split_ifs with h
          · exact .loop l .body fun _ => h
          · exact .loop l .exited nofun
      | body =>
          simp only [stepLoop]
          split_ifs with h
          · exact .loop l .check nofun
          · exact .fail l hp
      | exited => exact .idle

/-! ## What the program points say -/

/-- What holds of a session after the writes `ws`. -/
structure Guarded (s : Session) (ws : List StateWrite) : Prop where
  /-- An exchange never expects a state that ends `disconnect`. -/
  expected : ∀ i e, s.callers i = .exchange e → ¬ e.EndsDisconnect
  /-- Without failures, a call that has exchanged the state finds it there, or closed. -/
  storing : StateWrite.fail ∉ ws → ∀ i, s.callers i = .store → s.state = .kDisconnecting ∨ s.state = .kClosed
  /-- Without a store of `disconnect`, no loop is in its body when the state is `kClosed`. -/
  inBody : StateWrite.close ∉ ws → s.state = .kClosed → ∀ l, s.loops l ≠ .body

theorem guarded_start (state : SessionState) : Guarded (start state) [] :=
  ⟨nofun, fun _ _ h => (nomatch h), fun _ _ _ h => (nomatch h)⟩

theorem callers_moveCaller (s : Session) (i j : Nat) (p : DisconnectPoint) :
    (s.moveCaller i p).callers j = p ∨ (s.moveCaller i p).callers j = s.callers j := by
  by_cases h : j = i
  · subst h
    exact .inl (Function.update_self _ _ _)
  · exact .inr (Function.update_of_ne h _ _)

theorem loops_moveLoop (s : Session) (l k : SessionLoop) (p : LoopPoint) :
    (s.moveLoop l p).loops k = p ∨ (s.moveLoop l p).loops k = s.loops k := by
  by_cases h : k = l
  · subst h
    exact .inl (Function.update_self _ _ _)
  · exact .inr (Function.update_of_ne h _ _)

theorem guarded_move {s t : Session} {ws vs : List StateWrite} (hg : Guarded s ws) (h : Move s t vs) :
    Guarded t (ws ++ vs) := by
  cases h with
  | idle => rwa [List.append_nil]
  | caller i p hstore hexpected =>
      rw [List.append_nil]
      refine ⟨?_, ?_, hg.inBody⟩
      · intro j e he
        rcases callers_moveCaller s i j p with hp | hp
        · exact hexpected e (hp.symm.trans he)
        · exact hg.expected j e (hp.symm.trans he)
      · intro hfail j hj
        rcases callers_moveCaller s i j p with hp | hp
        · exact absurd (hp.symm.trans hj) hstore
        · exact hg.storing hfail j (hp.symm.trans hj)
  | exchange i _ =>
      refine ⟨?_, fun _ _ _ => .inl rfl, fun _ hclosed => nomatch hclosed⟩
      intro j e he
      rcases callers_moveCaller { s with state := .kDisconnecting } i j .store with hp | hp
      · exact nomatch hp.symm.trans he
      · exact hg.expected j e (hp.symm.trans he)
  | close i _ =>
      refine ⟨?_, fun _ _ _ => .inr rfl, fun hclose => absurd (by simp) hclose⟩
      intro j e he
      rcases callers_moveCaller { s with state := .kClosed } i j .close with hp | hp
      · exact nomatch hp.symm.trans he
      · exact hg.expected j e (hp.symm.trans he)
  | loop l p hp =>
      rw [List.append_nil]
      refine ⟨hg.expected, hg.storing, ?_⟩
      intro hclose hstate k hk
      rcases loops_moveLoop s l k p with hpk | hpk
      · -- the loop has just seen the state `kActive`
        have hactive := hp (hpk.symm.trans hk)
        exact nomatch hstate.symm.trans hactive
      · exact hg.inBody hclose hstate k (hpk.symm.trans hk)
  | fail l _ =>
      exact ⟨hg.expected, fun hfail => absurd (by simp) hfail, fun _ hclosed => nomatch hclosed⟩

theorem state_move {s t : Session} {ws vs : List StateWrite} (hg : Guarded s ws) (h : Move s t vs)
    (hnot : ¬ (StateWrite.close ∈ ws ++ vs ∧ StateWrite.fail ∈ ws ++ vs)) (hs : s.state.IsTerminal) :
    t.state = s.state := by
  cases h with
  | idle | caller | loop => rfl
  | exchange i hi => exact absurd hs.endsDisconnect (hg.expected i s.state hi)
  | close i hi =>
      have hfail : StateWrite.fail ∉ ws := fun hmem => hnot ⟨by simp, by simp [hmem]⟩
      rcases hg.storing hfail i hi with hd | hc
      · rw [hd] at hs
        exact absurd hs (by decide)
      · exact hc.symm
  | fail l hl =>
      have hclose : StateWrite.close ∉ ws := fun hmem => hnot ⟨by simp [hmem], by simp⟩
      rcases hs with hc | he
      · exact absurd hl (hg.inBody hclose hc l)
      · exact he.symm

/-! ## Runs -/

/-- Once the state is terminal, it stays as it is to the end of the run. -/
def TerminalFinal (state : SessionState) (actions : List SessionAction) : Prop :=
  ∀ pre post, actions = pre ++ post → (after state pre).state.IsTerminal →
    (after state actions).state = (after state pre).state

theorem guarded_after (state : SessionState) (actions : List SessionAction) :
    Guarded (after state actions) (writes state actions) :=
  runEffects_invariant (fun a _ s _ hg => guarded_move hg (move_step s a)) (guarded_start state)

theorem state_run {s : Session} {ws : List StateWrite} (hg : Guarded s ws) (actions : List SessionAction)
    (hnot : ¬ (StateWrite.close ∈ ws ++ (runEffects Session.step s actions).2 ∧
      StateWrite.fail ∈ ws ++ (runEffects Session.step s actions).2)) (hs : s.state.IsTerminal) :
    (runEffects Session.step s actions).1.state = s.state := by
  induction actions generalizing s ws with
  | nil => rfl
  | cons a actions ih =>
      rw [runEffects_cons, ← List.append_assoc] at hnot
      have hstep : (s.step a).1.state = s.state := by
        refine state_move hg (move_step s a) ?_ hs
        intro hboth
        exact hnot ⟨List.mem_append_left _ hboth.1, List.mem_append_left _ hboth.2⟩
      rw [runEffects_cons, ih (guarded_move hg (move_step s a)) hnot (by rwa [hstep]), hstep]

theorem state_of_write {s : Session} {a : SessionAction} :
    (StateWrite.close ∈ (s.step a).2 → (s.step a).1.state = .kClosed) ∧
      (StateWrite.fail ∈ (s.step a).2 → (s.step a).1.state = .kError) := by
  have h := move_step s a
  generalize (s.step a).1 = t at h ⊢
  generalize (s.step a).2 = vs at h ⊢
  cases h with
  | idle | caller | loop => exact ⟨fun hmem => absurd hmem List.not_mem_nil, fun hmem => absurd hmem List.not_mem_nil⟩
  | exchange => exact ⟨fun hmem => absurd hmem (by decide), fun hmem => absurd hmem (by decide)⟩
  | close => exact ⟨fun _ => rfl, fun hmem => absurd hmem (by decide)⟩
  | fail => exact ⟨fun hmem => absurd hmem (by decide), fun _ => rfl⟩

/-- The state after a write that leaves `target` behind is the last state of a run whose terminal states are final. -/
theorem state_of_final {state target : SessionState} {actions : List SessionAction} {w : StateWrite}
    (hfinal : TerminalFinal state actions) (hterminal : target.IsTerminal)
    (hwrite : ∀ s a, w ∈ (Session.step s a).2 → (Session.step s a).1.state = target) (hw : w ∈ writes state actions) :
    (after state actions).state = target := by
  obtain ⟨pre, a, post, hsplit, ha⟩ := exists_call_of_mem hw
  have hafter : (after state (pre ++ [a])).state = target := by
    unfold after
    rw [runEffects_append, runEffects_singleton]
    exact hwrite _ a ha
  have hlast := hfinal (pre ++ [a]) post (by rw [hsplit, List.append_assoc, List.singleton_append]) (by rwa [hafter])
  rw [hlast, hafter]

/-- **A terminal state is final exactly in the runs that do not contain both the last store of a `disconnect` and the
failure exit of a loop.** -/
theorem terminal_states_final_iff (state : SessionState) (actions : List SessionAction) :
    TerminalFinal state actions ↔
      ¬ (StateWrite.close ∈ writes state actions ∧ StateWrite.fail ∈ writes state actions) := by
  constructor
  · intro hfinal hboth
    have hclosed := state_of_final hfinal (.inl rfl) (fun _ _ => state_of_write.1) hboth.1
    have herror := state_of_final hfinal (.inr rfl) (fun _ _ => state_of_write.2) hboth.2
    exact nomatch hclosed.symm.trans herror
  · intro hnot pre post hsplit hterminal
    subst hsplit
    unfold after writes at *
    rw [runEffects_append] at hnot ⊢
    exact state_run (guarded_after state pre) post hnot hterminal

/-- `disconnect` closes the session while the receive loop waits for a message, and the failed receive then makes it an
error. -/
def closedThenError : List SessionAction :=
  [.loop .receive true, .disconnect 0 false, .disconnect 0 false, .disconnect 0 false, .disconnect 0 false,
    .loop .receive false]

/-- A receive fails between the exchange and the last store of a `disconnect`. -/
def errorThenClosed : List SessionAction :=
  [.loop .receive true, .disconnect 0 false, .disconnect 0 false, .loop .receive false, .disconnect 0 false]

theorem terminal_states_change :
    (after .kActive (closedThenError.take 5)).state = .kClosed ∧ (after .kActive closedThenError).state = .kError ∧
      (after .kActive (errorThenClosed.take 4)).state = .kError ∧
        (after .kActive errorThenClosed).state = .kClosed := by
  decide

end DevP2P.Rlpx
