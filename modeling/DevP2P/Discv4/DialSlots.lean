import DevP2P.Discv4.DialScheduler
import DevP2P.Lib.Tally
import Mathlib.Algebra.BigOperators.Ring.Finset

/-!
# The slots of the dial schedulers

* `Keeps` : what keeps a property of the slots through all calls;
* `Accounted` : the counters are the numbers of dials in flight; `Capped` : they are within the caps;
* `Quits` : a scheduler that was stopped; `quits_step` : it starts no dial;
* `dial_slots_never_overcommitted` : the counters and the caps after any calls, and no dial after `stop`.
-/

namespace DevP2P.Discv4.World
open DevP2P.Lib

variable {ι σ : Type} [DecidableEq ι]

/-! ## What keeps a property of the slots -/

section Counters

variable (clock : Nat → Nat) (w : World ι σ) (i j : ι) (vp : ValidatedPeer) (k : Nat) (dial : Dial ι)

theorem active_startDial :
    ((w.startDial clock i vp).schedulers j).active = (w.schedulers j).active + if j = i then 1 else 0 := by
  rw [schedulers_startDial]
  split_ifs <;> simp

theorem dials_startDial : (w.startDial clock i vp).dials = w.dials ++ [⟨i, vp, false⟩] := rfl

theorem validatedCount_startDial :
    ((w.startDial clock i vp).schedulers j).validatedCount = (w.schedulers j).validatedCount := by
  rw [schedulers_startDial]
  split_ifs <;> rfl

theorem active_afterDone :
    ((w.afterDone k dial).schedulers j).active = (w.schedulers j).active - if j = dial.sched then 1 else 0 := by
  rw [afterDone, schedulers_giveBack, schedulers_dialDone]
  split_ifs <;> simp

theorem validatedCount_afterDone :
    ((w.afterDone k dial).schedulers j).validatedCount =
      (w.schedulers j).validatedCount - if j = dial.sched ∧ dial.wasValidated then 1 else 0 := by
  rw [afterDone, schedulers_giveBack, schedulers_dialDone]
  split_ifs <;> simp

theorem dials_afterDone : (w.afterDone k dial).dials = w.dials.eraseIdx k := by
  show (w.dialDone k dial).dials = _
  unfold dialDone
  split_ifs <;> rfl

theorem pool_afterDone : (w.afterDone k dial).pool = { w.pool with activeTotal := w.pool.activeTotal - 1 } := by
  have hdone : (w.dialDone k dial).pool = w.pool := by
    unfold dialDone
    split_ifs <;> rfl
  rw [← hdone]
  rfl

theorem releasing_afterDone : (w.afterDone k dial).releasing = w.releasing := by
  show (w.dialDone k dial).releasing = _
  unfold dialDone
  split_ifs <;> rfl

theorem readings_afterDone : (w.afterDone k dial).readings = w.readings := by
  show (w.dialDone k dial).readings = _
  unfold dialDone
  split_ifs <;> rfl

theorem dialHistory_afterDone : ((w.afterDone k dial).schedulers j).dialHistory = (w.schedulers j).dialHistory := by
  rw [afterDone, schedulers_giveBack, schedulers_dialDone]
  split_ifs <;> rfl

theorem validatedCount_dialConnected (session : σ) :
    ((w.dialConnected k dial session).schedulers j).validatedCount =
      (w.schedulers j).validatedCount + if j = dial.sched then 1 else 0 := by
  rw [schedulers_dialConnected]
  split_ifs <;> simp

theorem dials_dialConnected (session : σ) :
    (w.dialConnected k dial session).dials = w.dials.set k { dial with wasValidated := true } := rfl

theorem active_dialConnected (session : σ) :
    ((w.dialConnected k dial session).schedulers j).active = (w.schedulers j).active := by
  rw [schedulers_dialConnected]
  split_ifs <;> rfl

end Counters

/-- `I` is kept by all that is done to the slots: nothing, a dial that starts, one that is over, and one that
connects. -/
structure Keeps (clock : Nat → Nat) (I : World ι σ → Prop) : Prop where
  idle : ∀ {w w'}, SameSlots w w' → I w → I w'
  start : ∀ {w i} vp, w.HasRoom i → I w → I (w.startDial clock i vp)
  done : ∀ {w k dial}, w.dials[k]? = some dial → I w → I (w.afterDone k dial)
  connected : ∀ {w k dial} session, w.dials[k]? = some dial → dial.wasValidated = false → I w →
    I (w.dialConnected k dial session)

namespace Keeps

variable {clock : Nat → Nat} {I : World ι σ → Prop} {w : World ι σ}

theorem drain (hI : Keeps clock I) (h : I w) (i : ι) : I (w.drain clock i).1 := by
  obtain ⟨w', hskips, ⟨-, heq⟩ | ⟨vp, -, hroom, heq⟩⟩ := drain_cases clock w i
  · rw [heq]
    exact hI.idle hskips.toSameSlots h
  · rw [heq]
    have hstart := hI.start vp hroom (hI.idle hskips.toSameSlots h)
    exact hI.idle (sameSlots_releasing _ _) hstart

theorem enqueue (hI : Keeps clock I) (h : I w) (i : ι) (vp : ValidatedPeer) : I (w.enqueue clock i vp).1 := by
  obtain ⟨w', hskips, heq | ⟨-, hroom, heq⟩ | ⟨-, -, heq⟩⟩ := enqueue_cases clock w i vp
  · rw [heq]
    exact hI.idle hskips.toSameSlots h
  · rw [heq]
    exact hI.start vp hroom (hI.idle hskips.toSameSlots h)
  · rw [heq]
    exact hI.idle (sameSlots_setQueue w' i _) (hI.idle hskips.toSameSlots h)

theorem onDone (hI : Keeps clock I) (h : I w) (k : Nat) : I (w.onDone clock k).1 := by
  cases hdial : w.dials[k]? with
  | none =>
      rw [World.onDone, hdial]
      exact h
  | some dial =>
      have hdone : I (w.afterDone k dial) := hI.done hdial h
      rw [onDone_eq clock w hdial]
      split_ifs
      · exact hdone
      · exact hI.drain (hI.idle (skips_expire clock _ _).toSameSlots hdone) _

theorem onConnected (hI : Keeps clock I) (h : I w) (k : Nat) (session : σ) : I (w.onConnected k session) := by
  unfold World.onConnected
  cases hdial : w.dials[k]? with
  | none => exact h
  | some dial =>
      dsimp only
      split_ifs with hvalidated
      · exact h
      · exact hI.connected session hdial (by simpa using hvalidated) h

theorem step (hI : Keeps clock I) (h : I w) (action : DialAction ι σ) : I (w.step clock action).1 := by
  cases action with
  | enqueue sched vp => exact hI.enqueue h sched vp
  | stop sched alive => exact hI.idle (sameSlots_stop w sched alive) h
  | onConnected k session => exact hI.onConnected h k session
  | onDone k => exact hI.onDone h k
  | spawnReturns =>
      show I (w.spawnReturns clock).1
      unfold World.spawnReturns
      cases w.releasing with
      | nil => exact h
      | cons i releasing => exact hI.drain (hI.idle (sameSlots_releasing w releasing) h) i

theorem run (hI : Keeps clock I) {maxTotal maxPerChain : Int} {filters : ι → Option FilterFn}
    (h : I (init maxTotal maxPerChain filters)) (actions : List (DialAction ι σ)) :
    I (World.run clock maxTotal maxPerChain filters actions).1 :=
  runEffects_state (I := I) (fun action _ _ h => hI.step h action) h

end Keeps

/-! ## The counters -/

/-- The counters are the numbers of dials in flight. -/
structure Accounted (w : World ι σ) : Prop where
  active : ∀ j, (w.schedulers j).active = w.inFlight j
  validatedCount : ∀ j, (w.schedulers j).validatedCount = w.validatedInFlight j
  activeTotal : w.pool.activeTotal = w.dials.length

theorem accounted_start (clock : Nat → Nat) {w : World ι σ} (i : ι) (vp : ValidatedPeer) (h : Accounted w) :
    Accounted (w.startDial clock i vp) where
  active := by
    intro j
    have hcount : (w.startDial clock i vp).inFlight j = w.inFlight j + if j = i then 1 else 0 := by
      rw [inFlight, dials_startDial, List.countP_append, List.countP_singleton]
      simp only [decide_eq_true_eq, eq_comm (a := j), inFlight]
    rw [active_startDial, hcount, h.active]
    split_ifs <;> omega
  validatedCount := by
    intro j
    have hcount : (w.startDial clock i vp).validatedInFlight j = w.validatedInFlight j := by
      rw [validatedInFlight, dials_startDial, List.countP_append, List.countP_singleton]
      simp [validatedInFlight]
    rw [validatedCount_startDial, hcount, h.validatedCount]
  activeTotal := by
    have htotal : (w.startDial clock i vp).pool.activeTotal = w.pool.activeTotal + 1 := rfl
    rw [htotal, dials_startDial, h.activeTotal, List.length_append, List.length_singleton]
    omega

theorem accounted_done {w : World ι σ} {k : Nat} {dial : Dial ι} (hdial : w.dials[k]? = some dial) (h : Accounted w) :
    Accounted (w.afterDone k dial) where
  active := by
    intro j
    have hcount : w.inFlight j = (w.afterDone k dial).inFlight j + if j = dial.sched then 1 else 0 := by
      rw [inFlight, countP_eq_eraseIdx _ hdial, inFlight, dials_afterDone]
      simp only [decide_eq_true_eq, eq_comm (a := j)]
    rw [active_afterDone, h.active, hcount]
    split_ifs <;> omega
  validatedCount := by
    intro j
    have hcount : w.validatedInFlight j =
        (w.afterDone k dial).validatedInFlight j + if j = dial.sched ∧ dial.wasValidated then 1 else 0 := by
      rw [validatedInFlight, countP_eq_eraseIdx _ hdial, validatedInFlight, dials_afterDone]
      simp only [decide_eq_true_eq, eq_comm (a := j)]
    rw [validatedCount_afterDone, h.validatedCount, hcount]
    split_ifs <;> omega
  activeTotal := by
    have hlen := length_eraseIdx_add_one hdial
    rw [pool_afterDone, dials_afterDone]
    dsimp only
    rw [h.activeTotal]
    omega

theorem accounted_connected {w : World ι σ} {k : Nat} {dial : Dial ι} (session : σ) (hdial : w.dials[k]? = some dial)
    (hflag : dial.wasValidated = false) (h : Accounted w) : Accounted (w.dialConnected k dial session) where
  active := by
    intro j
    have hcount := countP_set_add (fun d : Dial ι => d.sched = j) hdial { dial with wasValidated := true }
    dsimp only at hcount
    rw [active_dialConnected, h.active, inFlight, inFlight, dials_dialConnected]
    omega
  validatedCount := by
    intro j
    have hcount := countP_set_add (fun d : Dial ι => d.sched = j ∧ d.wasValidated) hdial
      { dial with wasValidated := true }
    simp only [hflag, Bool.false_eq_true, and_false, decide_false, if_false, and_true, add_zero,
      decide_eq_true_eq] at hcount
    rw [validatedCount_dialConnected, h.validatedCount, validatedInFlight, validatedInFlight,
      dials_dialConnected, hcount]
    simp only [eq_comm (a := j)]
    split_ifs <;> omega
  activeTotal := by
    rw [dials_dialConnected, List.length_set]
    exact h.activeTotal

theorem keeps_accounted (clock : Nat → Nat) : Keeps clock (Accounted : World ι σ → Prop) where
  idle := by
    intro w w' hsame h
    refine ⟨fun j => ?_, fun j => ?_, ?_⟩
    · rw [hsame.active, h.active, inFlight, inFlight, hsame.dials]
    · rw [hsame.validatedCount, h.validatedCount, validatedInFlight, validatedInFlight, hsame.dials]
    · rw [hsame.pool, hsame.dials, h.activeTotal]
  start := fun vp _ h => accounted_start clock _ vp h
  done := fun hdial h => accounted_done hdial h
  connected := fun session hdial hflag h => accounted_connected session hdial hflag h

theorem accounted_init (maxTotal maxPerChain : Int) (filters : ι → Option FilterFn) :
    Accounted (init maxTotal maxPerChain filters : World ι σ) := ⟨fun _ => rfl, fun _ => rfl, rfl⟩

theorem Accounted.validatedCount_le {w : World ι σ} (h : Accounted w) (j : ι) :
    (w.schedulers j).validatedCount ≤ (w.schedulers j).active := by
  have hle : w.validatedInFlight j ≤ w.inFlight j := by
    apply List.countP_mono_left
    intro d _ hd
    simp only [decide_eq_true_eq] at hd ⊢
    exact hd.1
  rw [h.validatedCount, h.active]
  omega

theorem Accounted.activeTotal_eq_sum [Fintype ι] {w : World ι σ} (h : Accounted w) :
    w.pool.activeTotal = ∑ j, (w.schedulers j).active := by
  have hsum : ∑ j, w.inFlight j = w.dials.length := sum_countP_eq_length (fun d : Dial ι => d.sched) w.dials
  rw [h.activeTotal, ← hsum, Nat.cast_sum]
  exact Finset.sum_congr rfl fun j _ => (h.active j).symm

/-! ## The caps -/

/-- The counters are within the caps; a negative cap allows as much as zero. -/
structure Capped (maxTotal maxPerChain : Int) (w : World ι σ) : Prop where
  maxTotal_eq : w.pool.maxTotal = maxTotal
  maxPerChain_eq : w.pool.maxPerChain = maxPerChain
  active_le : ∀ j, (w.schedulers j).active ≤ max 0 maxPerChain
  activeTotal_le : w.pool.activeTotal ≤ max 0 maxTotal

theorem keeps_capped (clock : Nat → Nat) (maxTotal maxPerChain : Int) :
    Keeps clock (Capped maxTotal maxPerChain : World ι σ → Prop) where
  idle := by
    intro w w' hsame h
    refine ⟨?_, ?_, fun j => ?_, ?_⟩
    · rw [hsame.pool, h.maxTotal_eq]
    · rw [hsame.pool, h.maxPerChain_eq]
    · rw [hsame.active]
      exact h.active_le j
    · rw [hsame.pool]
      exact h.activeTotal_le
  start := by
    intro w i vp hroom h
    obtain ⟨hchain, htotal⟩ := hroom
    rw [h.maxPerChain_eq] at hchain
    rw [h.maxTotal_eq] at htotal
    refine ⟨h.maxTotal_eq, h.maxPerChain_eq, fun j => ?_, ?_⟩
    · have hj := h.active_le j
      rw [active_startDial]
      split_ifs with hij
      · rw [hij]
        omega
      · omega
    · show w.pool.activeTotal + 1 ≤ max 0 maxTotal
      omega
  done := by
    intro w k dial _ h
    refine ⟨?_, ?_, fun j => ?_, ?_⟩
    · rw [pool_afterDone]
      exact h.maxTotal_eq
    · rw [pool_afterDone]
      exact h.maxPerChain_eq
    · have hj := h.active_le j
      rw [active_afterDone]
      split_ifs <;> omega
    · have htotal := h.activeTotal_le
      rw [pool_afterDone]
      dsimp only
      omega
  connected := by
    intro w k dial session _ _ h
    refine ⟨h.maxTotal_eq, h.maxPerChain_eq, fun j => ?_, h.activeTotal_le⟩
    rw [active_dialConnected]
    exact h.active_le j

omit [DecidableEq ι] in
theorem capped_init (maxTotal maxPerChain : Int) (filters : ι → Option FilterFn) :
    Capped maxTotal maxPerChain (init maxTotal maxPerChain filters : World ι σ) :=
  ⟨rfl, rfl, fun _ => le_max_left _ _, le_max_left _ _⟩

/-! ## After `stop` -/

/-- Scheduler `i` was stopped. -/
def Quits (i : ι) (w : World ι σ) : Prop := (w.schedulers i).stopping = true ∧ (w.schedulers i).queue = []

omit [DecidableEq ι] in
theorem Quits.skips {i : ι} {w w' : World ι σ} (h : Quits i w) (hskips : Skips w w') : Quits i w' :=
  ⟨(hskips.stopping i).trans h.1, hskips.queue_eq_nil h.2⟩

omit [DecidableEq ι] in
theorem Quits.of_same {i : ι} {w w' : World ι σ} (h : Quits i w) (hsame : SameQueues w w') : Quits i w' :=
  ⟨(hsame.stopping i).trans h.1, (hsame.queue i).trans h.2⟩

theorem Quits.drain {clock : Nat → Nat} {i : ι} {w : World ι σ} (h : Quits i w) (j : ι) :
    Quits i (w.drain clock j).1 ∧ ∀ vp, DialEffect.dial i vp ∉ (w.drain clock j).2 := by
  obtain ⟨w', hskips, ⟨-, heq⟩ | ⟨vp, hmem, -, heq⟩⟩ := drain_cases clock w j
  · rw [heq]
    exact ⟨h.skips hskips, by simp⟩
  · have hne : i ≠ j := fun hij => List.ne_nil_of_mem hmem (hij ▸ h.2)
    have hstart : Quits i (w'.startDial clock j vp) := (h.skips hskips).of_same (sameQueues_startDial clock w' j vp)
    rw [heq]
    exact ⟨hstart, by simp [hne]⟩

theorem Quits.enqueue {clock : Nat → Nat} {i : ι} {w : World ι σ} (h : Quits i w) (j : ι) (vp : ValidatedPeer) :
    Quits i (w.enqueue clock j vp).1 ∧ ∀ vp', DialEffect.dial i vp' ∉ (w.enqueue clock j vp).2 := by
  have hne : (w.schedulers j).stopping = false → i ≠ j := by
    intro hrunning hij
    rw [← hij, h.1] at hrunning
    exact absurd hrunning (by simp)
  obtain ⟨w', hskips, heq | ⟨hrunning, -, heq⟩ | ⟨hrunning, -, heq⟩⟩ := enqueue_cases clock w j vp
  · rw [heq]
    exact ⟨h.skips hskips, by simp⟩
  · rw [heq]
    exact ⟨(h.skips hskips).of_same (sameQueues_startDial clock w' j vp), by simp [hne hrunning]⟩
  · have hquits := h.skips hskips
    rw [heq]
    refine ⟨?_, by simp⟩
    show Quits i (w'.setQueue j _)
    unfold Quits
    rw [schedulers_setQueue, if_neg (hne hrunning)]
    exact hquits

theorem quits_step {clock : Nat → Nat} {i : ι} {w : World ι σ} (h : Quits i w) (action : DialAction ι σ) :
    Quits i (w.step clock action).1 ∧ ∀ vp, DialEffect.dial i vp ∉ (w.step clock action).2 := by
  cases action with
  | enqueue sched vp => exact h.enqueue sched vp
  | stop sched alive =>
      refine ⟨?_, by simp [World.step, World.stop]⟩
      show Quits i (w.stop sched alive).1
      unfold Quits
      rw [schedulers_stop]
      split_ifs
      · exact ⟨rfl, rfl⟩
      · exact h
  | onConnected k session =>
      refine ⟨?_, by simp [World.step]⟩
      show Quits i (w.onConnected k session)
      unfold World.onConnected
      cases w.dials[k]? with
      | none => exact h
      | some dial =>
          dsimp only
          split_ifs
          · exact h
          · exact h.of_same (sameQueues_dialConnected w k dial session)
  | onDone k =>
      show Quits i (w.onDone clock k).1 ∧ ∀ vp, DialEffect.dial i vp ∉ (w.onDone clock k).2
      cases hdial : w.dials[k]? with
      | none =>
          rw [World.onDone, hdial]
          exact ⟨h, by simp⟩
      | some dial =>
          have hdone : Quits i (w.afterDone k dial) := h.of_same (sameQueues_afterDone w k dial)
          rw [onDone_eq clock w hdial]
          split_ifs
          · exact ⟨hdone, by simp⟩
          · exact (hdone.skips (skips_expire clock _ _)).drain dial.sched
  | spawnReturns =>
      show Quits i (w.spawnReturns clock).1 ∧ ∀ vp, DialEffect.dial i vp ∉ (w.spawnReturns clock).2
      unfold World.spawnReturns
      cases w.releasing with
      | nil => exact ⟨h, by simp⟩
      | cons j releasing => exact Quits.drain (show Quits i { w with releasing } from h) j

theorem quits_stop (w : World ι σ) (i : ι) (alive : σ → Bool) : Quits i (w.stop i alive).1 := by
  unfold Quits
  rw [schedulers_stop, if_pos rfl]
  exact ⟨rfl, rfl⟩

theorem no_dial_of_quits {clock : Nat → Nat} {i : ι} {w : World ι σ} (h : Quits i w) (actions : List (DialAction ι σ))
    (vp : ValidatedPeer) : DialEffect.dial i vp ∉ (runEffects (step clock) w actions).2 := by
  induction actions generalizing w with
  | nil => simp
  | cons action actions ih =>
      have hstep : Quits i (w.step clock action).1 ∧ ∀ vp, DialEffect.dial i vp ∉ (w.step clock action).2 :=
        quits_step h action
      rw [runEffects_cons, List.mem_append, not_or]
      exact ⟨hstep.2 vp, ih hstep.1⟩

/-- **Slots.** After any calls of the schedulers of a pool and of the callbacks of their dials, each scheduler counts
its dials in flight and is within its cap, the pool counts the dials of all schedulers and is within its cap, and the
validated dials are among those in flight. A scheduler that was stopped starts no dial. -/
theorem dial_slots_never_overcommitted [Fintype ι] (clock : Nat → Nat) (maxTotal maxPerChain : Int)
    (filters : ι → Option FilterFn) (hTotal : 0 ≤ maxTotal) (hPerChain : 0 ≤ maxPerChain)
    (actions : List (DialAction ι σ)) :
    let w := (run clock maxTotal maxPerChain filters actions).1
    (∀ i, (w.schedulers i).active = w.inFlight i ∧ 0 ≤ (w.schedulers i).active ∧ (w.schedulers i).active ≤ maxPerChain ∧
        0 ≤ (w.schedulers i).validatedCount ∧ (w.schedulers i).validatedCount ≤ (w.schedulers i).active) ∧
      w.pool.activeTotal = ∑ i, (w.schedulers i).active ∧ w.pool.activeTotal ≤ maxTotal ∧
      ∀ before i alive after, actions = before ++ DialAction.stop i alive :: after →
        ∀ vp, DialEffect.dial i vp ∉
          (runEffects (step clock) (run clock maxTotal maxPerChain filters (before ++ [.stop i alive])).1 after).2 := by
  intro w
  have haccounted : Accounted w := (keeps_accounted clock).run (accounted_init maxTotal maxPerChain filters) actions
  have hcapped : Capped maxTotal maxPerChain w :=
    (keeps_capped clock maxTotal maxPerChain).run (capped_init maxTotal maxPerChain filters) actions
  refine ⟨fun i => ?_, haccounted.activeTotal_eq_sum, hcapped.activeTotal_le.trans (max_eq_right hTotal).le, ?_⟩
  · have hactive := haccounted.active i
    have hvalidated := haccounted.validatedCount i
    have hle := hcapped.active_le i
    exact ⟨hactive, by omega, by omega, by omega, haccounted.validatedCount_le i⟩
  · intro before i alive after _ vp
    apply no_dial_of_quits
    rw [run_concat]
    exact quits_stop _ i alive

/-- A peer whose id repeats one byte. -/
def makePeer (idByte : UInt8) : ValidatedPeer where
  peer := ⟨⟨⟨List.replicate 64 idByte, List.length_replicate⟩, [], 0, 30303, 0⟩, none⟩
  pubkey := default

/-- A dial that is over makes room for a queued peer, and the loop of `release` waits while another scheduler is used
and stopped. -/
theorem dial_slots_never_overcommitted_two :
    let actions : List (DialAction Bool Unit) :=
      [.enqueue false (makePeer 1), .enqueue false (makePeer 2), .onConnected 0 (), .onDone 0,
        .enqueue true (makePeer 3),
        .stop true fun _ => true]
    let w := (run (fun n => n) 2 1 (fun _ => none) actions).1
    w.releasing = [false] ∧ w.inFlight false = 1 ∧ w.inFlight true = 1 ∧
      w.pool.activeTotal = ∑ i, (w.schedulers i).active ∧ w.pool.activeTotal ≤ 2 := by
  intro actions w
  have hslots := dial_slots_never_overcommitted (fun n => n) 2 1 (fun _ => none) (by decide) (by decide) actions
  exact ⟨by decide +kernel, by decide +kernel, by decide +kernel, hslots.2.1, hslots.2.2.1⟩

end DevP2P.Discv4.World
