import DevP2P.Discv4.DialSlots

/-!
# Peers that wait in a queue

A dial that is over gives its slot back to the pool, but only its own scheduler looks at its queue.

* `Waits` : a scheduler has no reason to dial, or it is still releasing; `Bypasses` : the end of a dial makes room for
  another scheduler, which waits; `waits_step` : any other call keeps `Waits`;
* `Filled`, `exists_filled` : a run after which the schedulers have any given numbers of dials in flight;
* `Filled.stranded` : from there, calls after which a peer waits while both caps have room;
* `never_stranded_iff` : peers are never stranded exactly if the schedulers do not compete for the slots of the pool,
  and not in a run without `Bypasses`.
-/

namespace DevP2P.Discv4.World
open DevP2P.Lib

variable {ι σ : Type} [DecidableEq ι]

/-- After any calls but `stop`, when all of them have returned, a scheduler with a peer in its queue has reached one of
the caps. -/
def NeverStranded (ι σ : Type) [DecidableEq ι] (maxTotal maxPerChain : Int) : Prop :=
  ∀ clock : Nat → Nat, Monotone clock → ∀ (filters : ι → Option FilterFn) (actions : List (DialAction ι σ)),
    (∀ action ∈ actions, action.isStop = false) →
      let w := (run clock maxTotal maxPerChain filters actions).1
      w.releasing = [] → ∀ i, (w.schedulers i).stopping = false → (w.schedulers i).queue ≠ [] →
        maxPerChain ≤ (w.schedulers i).active ∨ maxTotal ≤ w.pool.activeTotal

/-! ## Schedulers that do not compete -/

/-- Scheduler `j` has no reason to dial, or it will look at its queue. -/
def Waits (j : ι) (w : World ι σ) : Prop :=
  (w.schedulers j).stopping = true ∨ (w.schedulers j).queue = [] ∨ ¬ w.HasRoom j ∨ j ∈ w.releasing

section Waits

variable {clock : Nat → Nat} {w w' : World ι σ} {i j : ι}

omit [DecidableEq ι] in
/-- What leaves scheduler `j` and its excuses alone. -/
theorem Waits.mono (h : Waits j w) (hstop : (w'.schedulers j).stopping = (w.schedulers j).stopping)
    (hqueue : (w.schedulers j).queue = [] → (w'.schedulers j).queue = []) (hroom : w'.HasRoom j → w.HasRoom j)
    (hreleasing : j ∈ w.releasing → j ∈ w'.releasing) : Waits j w' := by
  rcases h with h | h | h | h
  · exact .inl (hstop.trans h)
  · exact .inr (.inl (hqueue h))
  · exact .inr (.inr (.inl fun hroom' => h (hroom hroom')))
  · exact .inr (.inr (.inr (hreleasing h)))

omit [DecidableEq ι] in
theorem Waits.of_same (h : Waits j w) (hsame : SameQueues w w') (hroom : w'.HasRoom j → w.HasRoom j)
    (hreleasing : j ∈ w.releasing → j ∈ w'.releasing) : Waits j w' :=
  h.mono (hsame.stopping j) (fun hqueue => (hsame.queue j).trans hqueue) hroom hreleasing

omit [DecidableEq ι] in
theorem Waits.skips (h : Waits j w) (hskips : Skips w w') : Waits j w' :=
  h.mono (hskips.stopping j) hskips.queue_eq_nil hskips.hasRoom_iff.mp fun hj => hskips.releasing ▸ hj

theorem hasRoom_of_startDial {vp : ValidatedPeer} (h : (w.startDial clock i vp).HasRoom j) : w.HasRoom j := by
  obtain ⟨hchain, htotal⟩ := h
  rw [active_startDial] at hchain
  have htotal' : w.pool.activeTotal + 1 < w.pool.maxTotal := htotal
  have hchain' : (w.schedulers j).active + (if j = i then 1 else 0) < w.pool.maxPerChain := hchain
  split_ifs at hchain' <;> exact ⟨by omega, by omega⟩

theorem Waits.startDial (h : Waits j w) (vp : ValidatedPeer) : Waits j (w.startDial clock i vp) :=
  h.of_same (sameQueues_startDial clock w i vp) hasRoom_of_startDial id

/-- The loop of `release` answers for its own scheduler. -/
theorem waits_drain (h : ∀ j ≠ i, Waits j w) (j : ι) : Waits j (w.drain clock i).1 := by
  obtain ⟨w', hskips, ⟨hend, heq⟩ | ⟨vp, -, -, heq⟩⟩ := drain_cases clock w i
  · rw [heq]
    by_cases hj : j = i
    · rw [hj]
      exact hend.elim (fun hqueue => .inr (.inl hqueue)) fun hroom => .inr (.inr (.inl hroom))
    · exact (h j hj).skips hskips
  · rw [heq]
    by_cases hj : j = i
    · exact .inr (.inr (.inr (hj ▸ List.mem_cons_self)))
    · have hstart : Waits j (w'.startDial clock i vp) := ((h j hj).skips hskips).startDial vp
      exact hstart.mono rfl id id (List.mem_cons_of_mem i)

theorem waits_enqueue (h : ∀ j, Waits j w) (vp : ValidatedPeer) (j : ι) : Waits j (w.enqueue clock i vp).1 := by
  obtain ⟨w', hskips, heq | ⟨-, -, heq⟩ | ⟨-, hroom, heq⟩⟩ := enqueue_cases clock w i vp
  · rw [heq]
    exact (h j).skips hskips
  · rw [heq]
    exact ((h j).skips hskips).startDial vp
  · have hsame := sameSlots_setQueue w' i ((w'.schedulers i).queue ++ [vp])
    rw [heq]
    by_cases hj : j = i
    · rw [hj]
      exact .inr (.inr (.inl fun h => hroom (hsame.hasRoom_iff.mp h)))
    · refine ((h j).skips hskips).mono ?_ ?_ hsame.hasRoom_iff.mp id <;> rw [schedulers_setQueue, if_neg hj]
      exact id

theorem Waits.dialConnected (h : Waits j w) (k : Nat) (dial : Dial ι) (session : σ) :
    Waits j (w.dialConnected k dial session) := by
  refine h.of_same (sameQueues_dialConnected w k dial session) (fun hroom => ?_) id
  rw [HasRoom, active_dialConnected] at hroom
  exact hroom

theorem Waits.stop (h : Waits j w) (alive : σ → Bool) : Waits j (w.stop i alive).1 := by
  by_cases hj : j = i
  · left
    rw [schedulers_stop, if_pos hj]
  · refine h.mono ?_ ?_ (sameSlots_stop w i alive).hasRoom_iff.mp id <;> rw [schedulers_stop, if_neg hj]
    exact id

/-- A dial that is over gives back a slot of the full pool, and a scheduler that waits for one is not the one whose
dial it was. -/
def Bypasses (w : World ι σ) : DialAction ι σ → Prop
  | .onDone k => ∃ dial j, w.dials[k]? = some dial ∧ j ≠ dial.sched ∧ (w.schedulers j).stopping = false ∧
      (w.schedulers j).queue ≠ [] ∧ (w.schedulers j).active < w.pool.maxPerChain ∧ w.pool.maxTotal ≤ w.pool.activeTotal
  | _ => False

theorem Waits.afterDone (h : Waits j w) {k : Nat} {dial : Dial ι} (hdial : w.dials[k]? = some dial)
    (hj : j ≠ dial.sched) (hnone : ¬ w.Bypasses (.onDone k)) : Waits j (w.afterDone k dial) := by
  have hsame := sameQueues_afterDone w k dial
  by_cases hstop : (w.schedulers j).stopping = true
  · exact .inl ((hsame.stopping j).trans hstop)
  by_cases hqueue : (w.schedulers j).queue = []
  · exact .inr (.inl ((hsame.queue j).trans hqueue))
  refine h.of_same hsame (fun hroom => ?_) (releasing_afterDone w k dial ▸ id)
  have hchain := hroom.1
  rw [active_afterDone, if_neg hj, sub_zero, pool_afterDone] at hchain
  refine ⟨hchain, not_le.mp fun hfull => hnone ?_⟩
  exact ⟨dial, j, hdial, hj, by simpa using hstop, hqueue, hchain, hfull⟩

theorem waits_onDone {k : Nat} (hnone : ¬ w.Bypasses (.onDone k)) (h : ∀ j, Waits j w) (j : ι) :
    Waits j (w.onDone clock k).1 := by
  cases hdial : w.dials[k]? with
  | none =>
      rw [World.onDone, hdial]
      exact h j
  | some dial =>
      have hother : ∀ j ≠ dial.sched, Waits j (w.afterDone k dial) := fun j hj => (h j).afterDone hdial hj hnone
      rw [onDone_eq clock w hdial]
      split_ifs with hstop
      · by_cases hj : j = dial.sched
        · rw [hj]
          exact .inl hstop
        · exact hother j hj
      · exact waits_drain (fun j hj => (hother j hj).skips (skips_expire clock _ _)) j

theorem waits_step {action : DialAction ι σ} (hnone : ¬ w.Bypasses action) (h : ∀ j, Waits j w) (j : ι) :
    Waits j (w.step clock action).1 := by
  cases action with
  | enqueue sched vp => exact waits_enqueue h vp j
  | stop sched alive => exact (h j).stop alive
  | onConnected k session =>
      show Waits j (w.onConnected k session)
      unfold onConnected
      cases w.dials[k]? with
      | none => exact h j
      | some dial =>
          dsimp only
          split_ifs
          · exact h j
          · exact (h j).dialConnected k dial session
  | onDone k => exact waits_onDone hnone h j
  | spawnReturns =>
      show Waits j (w.spawnReturns clock).1
      unfold spawnReturns
      cases hreleasing : w.releasing with
      | nil => exact h j
      | cons i releasing =>
          -- the loop that goes on is no excuse any more, for its scheduler only
          have hother : ∀ j ≠ i, Waits j { w with releasing } := by
            intro j hj
            refine (h j).mono rfl id id ?_
            rw [hreleasing]
            exact fun hmem => (List.mem_cons.mp hmem).resolve_left hj
          exact waits_drain hother j

section Run

variable {maxTotal maxPerChain : Int} {filters : ι → Option FilterFn} {actions : List (DialAction ι σ)}
  (hnone : ∀ before action, before ++ [action] <+: actions →
    ¬ (run clock maxTotal maxPerChain filters before).1.Bypasses action)
include hnone

theorem waits_run (j : ι) : Waits j (run clock maxTotal maxPerChain filters actions).1 := by
  induction actions using List.reverseRecOn generalizing j with
  | nil => exact .inr (.inl rfl)
  | append_singleton actions action ih =>
      have hbefore := ih fun before next hle => hnone before next (hle.trans (List.prefix_append _ _))
      rw [run_concat]
      exact waits_step (hnone actions action (List.prefix_refl _)) hbefore j

theorem capped_of_not_bypasses :
    let w := (run clock maxTotal maxPerChain filters actions).1
    w.releasing = [] → ∀ i, (w.schedulers i).stopping = false → (w.schedulers i).queue ≠ [] →
      maxPerChain ≤ (w.schedulers i).active ∨ maxTotal ≤ w.pool.activeTotal := by
  intro w hreleasing i hstop hqueue
  have hcapped : Capped maxTotal maxPerChain w :=
    (keeps_capped clock maxTotal maxPerChain).run (capped_init maxTotal maxPerChain filters) actions
  have hwaits : Waits i w := waits_run hnone i
  have hroom : ¬ w.HasRoom i := by
    rcases hwaits with h | h | h | h
    · rw [hstop] at h
      cases h
    · exact absurd h hqueue
    · exact h
    · rw [hreleasing] at h
      cases h
  unfold HasRoom at hroom
  rw [hcapped.maxPerChain_eq, hcapped.maxTotal_eq] at hroom
  omega

end Run

end Waits

section Enough

variable [Fintype ι] {maxTotal maxPerChain : Int} {w : World ι σ}

theorem activeTotal_lt_of_active_lt (hcard : Fintype.card ι * maxPerChain ≤ maxTotal) (haccounted : Accounted w)
    (hcapped : Capped maxTotal maxPerChain w) {j : ι} (hj : (w.schedulers j).active < maxPerChain) :
    w.pool.activeTotal < maxTotal := by
  have hactive := haccounted.active j
  have hle : ∀ i, (w.schedulers i).active ≤ maxPerChain := fun i =>
    (hcapped.active_le i).trans (max_eq_right (by omega)).le
  calc w.pool.activeTotal = ∑ i, (w.schedulers i).active := haccounted.activeTotal_eq_sum
    _ < ∑ _i : ι, maxPerChain := Finset.sum_lt_sum (fun i _ => hle i) ⟨j, Finset.mem_univ j, hj⟩
    _ = Fintype.card ι * maxPerChain := by rw [Finset.sum_const, Finset.card_univ, nsmul_eq_mul]
    _ ≤ maxTotal := hcard

theorem not_bypasses_of_enough
    (h : Fintype.card ι ≤ 1 ∨ maxPerChain ≤ 0 ∨ maxTotal ≤ 0 ∨ Fintype.card ι * maxPerChain ≤ maxTotal)
    (haccounted : Accounted w) (hcapped : Capped maxTotal maxPerChain w) (action : DialAction ι σ) :
    ¬ w.Bypasses action := by
  cases action with
  | onDone k =>
      rintro ⟨dial, j, hdial, hj, -, -, hchain, hfull⟩
      rw [hcapped.maxPerChain_eq] at hchain
      rw [hcapped.maxTotal_eq] at hfull
      rcases h with hcard | hPerChain | hTotal | hcard
      · exact hj (Fintype.card_le_one_iff.mp hcard j dial.sched)
      · have hactive := haccounted.active j
        omega
      · have htotal := haccounted.activeTotal
        have hle := hcapped.activeTotal_le
        have hdials := List.length_pos_of_mem (List.mem_of_getElem? hdial)
        omega
      · exact hfull.not_gt (activeTotal_lt_of_active_lt hcard haccounted hcapped hchain)
  | _ => exact id

theorem neverStranded_of_enough
    (h : Fintype.card ι ≤ 1 ∨ maxPerChain ≤ 0 ∨ maxTotal ≤ 0 ∨ Fintype.card ι * maxPerChain ≤ maxTotal) :
    NeverStranded ι σ maxTotal maxPerChain := by
  intro clock _ filters actions _
  refine capped_of_not_bypasses fun before action _ => not_bypasses_of_enough h ?_ ?_ action
  · exact (keeps_accounted clock).run (accounted_init maxTotal maxPerChain filters) before
  · exact (keeps_capped clock maxTotal maxPerChain).run (capped_init maxTotal maxPerChain filters) before

end Enough

/-! ## Schedulers that compete -/

/-- A clock that is read once in each period of the history. -/
def slowClock (n : Nat) : Nat := n * kDefaultDialHistoryExpiry

theorem monotone_slowClock : Monotone slowClock := fun _ _ h => Nat.mul_le_mul_right _ h

/-- The history of scheduler `i` has expired. -/
structure Forgotten (w : World ι σ) (i : ι) : Prop where
  expiry : (w.schedulers i).dialHistory.expiry = kDefaultDialHistoryExpiry
  entries : ∀ e ∈ (w.schedulers i).dialHistory.entries.entries, e.2 ≤ slowClock w.readings

omit [DecidableEq ι] in
theorem Forgotten.mono {w w' : World ι σ} {i : ι} (h : Forgotten w i) (hreadings : w.readings ≤ w'.readings)
    (hhistory : (w'.schedulers i).dialHistory = (w.schedulers i).dialHistory) : Forgotten w' i := by
  refine ⟨?_, ?_⟩ <;> rw [hhistory]
  · exact h.expiry
  · exact fun e he => (h.entries e he).trans (monotone_slowClock hreadings)

theorem Forgotten.entries_expire {w : World ι σ} {i : ι} (h : Forgotten w i) :
    ((w.expire slowClock i).schedulers i).dialHistory.entries = ∅ := by
  apply AList.ext
  rw [schedulers_expire, if_pos rfl]
  apply List.filter_eq_nil_iff.mpr
  intro e he
  simpa using h.entries e he

theorem enqueue_of_forgotten {w : World ι σ} {i : ι} (hstop : (w.schedulers i).stopping = false)
    (hfilter : (w.schedulers i).filterFn = none) (h : Forgotten w i) (vp : ValidatedPeer) :
    w.enqueue slowClock i vp =
      let w' := w.expire slowClock i
      if w'.HasRoom i then (w'.startDial slowClock i vp, [.dial i vp])
      else (w'.setQueue i ((w'.schedulers i).queue ++ [vp]), []) := by
  have hcontains : (w.expire slowClock i).contains slowClock i vp = false := by
    unfold World.contains DialHistory.contains
    rw [h.entries_expire, AList.lookup_empty]
  have hlooked : (w.expire slowClock i).looked i vp = w.expire slowClock i := by
    unfold looked
    rw [h.entries_expire, AList.lookup_empty]
    rfl
  unfold enqueue
  dsimp only
  rw [if_neg (by simp [hstop]), if_neg (by simp [hfilter]), if_neg (by simp [hcontains]), hlooked]

/-- Scheduler `i` has `share i` dials in flight and is ready for more. -/
structure Filled [Fintype ι] (maxTotal maxPerChain : Int) (share : ι → Nat) (w : World ι σ) : Prop where
  pool : w.pool = ⟨maxTotal, maxPerChain, (∑ i, share i : Nat)⟩
  releasing : w.releasing = []
  active : ∀ i, (w.schedulers i).active = share i
  stopping : ∀ i, (w.schedulers i).stopping = false
  filterFn : ∀ i, (w.schedulers i).filterFn = none
  queue : ∀ i, (w.schedulers i).queue = []
  forgotten : ∀ i, Forgotten w i

section Filled

variable [Fintype ι] {maxTotal maxPerChain : Int} {share : ι → Nat} {w : World ι σ}

theorem Filled.expire (h : Filled maxTotal maxPerChain share w) (i : ι) :
    Filled maxTotal maxPerChain share (w.expire slowClock i) := by
  have hskips := skips_expire slowClock w i
  refine ⟨h.pool, h.releasing, fun j => ?_, fun j => ?_, fun j => ?_,
    fun j => hskips.queue_eq_nil (h.queue j), fun j => ?_⟩
  · rw [hskips.active, h.active]
  · rw [hskips.stopping, h.stopping]
  · rw [schedulers_expire]
    split_ifs <;> exact h.filterFn j
  · by_cases hj : j = i
    · refine ⟨?_, ?_⟩
      · rw [schedulers_expire, if_pos hj]
        exact (h.forgotten j).expiry
      · rw [hj, (h.forgotten i).entries_expire]
        intro e he
        cases he
    · refine (h.forgotten j).mono (Nat.le_succ w.readings) ?_
      rw [schedulers_expire, if_neg hj]

theorem Filled.startDial (h : Filled maxTotal maxPerChain share w) (i : ι) (vp : ValidatedPeer) :
    Filled maxTotal maxPerChain (Function.update share i (share i + 1)) (w.startDial slowClock i vp) := by
  have hsame := sameQueues_startDial slowClock w i vp
  refine ⟨?_, h.releasing, fun j => ?_, fun j => ?_, fun j => ?_, fun j => ?_, fun j => ?_⟩
  · have hsum := sum_update_add share i (share i + 1)
    have hpool : (w.startDial slowClock i vp).pool = { w.pool with activeTotal := w.pool.activeTotal + 1 } := rfl
    rw [hpool, h.pool, WatcherPool.mk.injEq]
    exact ⟨rfl, rfl, by dsimp only; omega⟩
  · rw [active_startDial, h.active, Function.update_apply]
    split_ifs with hj
    · rw [hj]
      rfl
    · rw [add_zero]
  · rw [hsame.stopping, h.stopping]
  · rw [schedulers_startDial]
    split_ifs <;> exact h.filterFn j
  · rw [hsame.queue, h.queue]
  · have hreadings : w.readings ≤ (w.startDial slowClock i vp).readings := Nat.le_succ w.readings
    by_cases hj : j = i
    · refine ⟨?_, ?_⟩
      · rw [schedulers_startDial, if_pos hj]
        exact (h.forgotten j).expiry
      · intro e he
        rw [schedulers_startDial, if_pos hj] at he
        -- the new entry lasts to the next reading
        rcases List.mem_cons.mp he with rfl | hold
        · show slowClock w.readings + (w.schedulers j).dialHistory.expiry ≤ slowClock (w.readings + 1)
          rw [(h.forgotten j).expiry, slowClock, slowClock, Nat.succ_mul]
        · exact ((h.forgotten j).entries e ((List.kerase_sublist _ _).subset hold)).trans (monotone_slowClock hreadings)
    · refine (h.forgotten j).mono hreadings ?_
      rw [schedulers_startDial, if_neg hj]

theorem Filled.enqueue (h : Filled maxTotal maxPerChain share w) {i : ι} (hPerChain : (share i : Int) < maxPerChain)
    (hTotal : (∑ i, share i : Nat) < maxTotal) (vp : ValidatedPeer) :
    Filled maxTotal maxPerChain (Function.update share i (share i + 1)) (w.enqueue slowClock i vp).1 := by
  have hexpired := h.expire i
  have hroom : HasRoom (w.expire slowClock i) i := by
    unfold HasRoom
    rw [hexpired.pool, hexpired.active]
    exact ⟨hPerChain, hTotal⟩
  rw [enqueue_of_forgotten (h.stopping i) (h.filterFn i) (h.forgotten i)]
  dsimp only
  rw [if_pos hroom]
  exact hexpired.startDial i vp

omit [DecidableEq ι] in
theorem filled_init : Filled maxTotal maxPerChain (fun _ => 0)
    (init maxTotal maxPerChain fun _ => none : World ι σ) := by
  refine ⟨?_, rfl, fun _ => rfl, fun _ => rfl, fun _ => rfl, fun _ => rfl, fun i => ⟨rfl, fun e he => nomatch he⟩⟩
  rw [Finset.sum_const_zero]
  rfl

theorem exists_filled (share : ι → Nat) (hPerChain : ∀ i, (share i : Int) ≤ maxPerChain)
    (hTotal : (∑ i, share i : Nat) ≤ maxTotal) (vp : ValidatedPeer) :
    ∃ actions : List (DialAction ι σ), (∀ action ∈ actions, action.isStop = false) ∧
      Filled maxTotal maxPerChain share (run slowClock maxTotal maxPerChain (fun _ => none) actions).1 := by
  induction htotal : ∑ i, share i generalizing share with
  | zero =>
      have hzero : share = fun _ => 0 := by
        funext i
        exact (Finset.sum_eq_zero_iff.mp htotal) i (Finset.mem_univ i)
      rw [hzero]
      exact ⟨[], by simp, filled_init⟩
  | succ n ih =>
      -- one dial less, then one more peer for the same scheduler
      obtain ⟨i, -, hi⟩ := Finset.exists_ne_zero_of_sum_ne_zero (show ∑ i, share i ≠ 0 by omega)
      have hsum := sum_update_add share i (share i - 1)
      have hless : ∀ j, (Function.update share i (share i - 1) j : Int) ≤ maxPerChain := by
        intro j
        have hj := hPerChain j
        rw [Function.update_apply]
        split_ifs with hji
        · rw [hji] at hj
          omega
        · exact hj
      obtain ⟨actions, hstops, hfilled⟩ := ih (Function.update share i (share i - 1)) hless (by omega) (by omega)
      refine ⟨actions ++ [.enqueue i vp], ?_, ?_⟩
      · simpa [or_imp, forall_and, DialAction.isStop] using hstops
      · have hi' := hPerChain i
        have hnext := hfilled.enqueue (i := i) (by rw [Function.update_self]; omega) (by omega) vp
        rw [Function.update_idem, Function.update_self, Nat.sub_add_cancel (Nat.pos_of_ne_zero hi),
          Function.update_eq_self] at hnext
        rw [run_concat]
        exact hnext

end Filled

/-- Shares that use up the slots of the pool, with room left for one scheduler by its own cap and a dial in flight of
another one. -/
theorem exists_full_shares [Fintype ι] {total perChain : Nat} (htotal : 0 < total) (hperChain : 0 < perChain)
    (hcompete : total < Fintype.card ι * perChain) {b : ι} (hcard : 1 < Fintype.card ι) :
    ∃ share : ι → Nat, (∀ i, share i ≤ perChain) ∧ ∑ i, share i = total ∧ share b < perChain ∧
      ∃ a ≠ b, share a ≠ 0 := by
  have hothers : (Finset.univ.erase b).card + 1 = Fintype.card ι := Finset.card_erase_add_one (Finset.mem_univ b)
  rw [← hothers, Nat.succ_mul] at hcompete
  have hslots : 0 < (Finset.univ.erase b).card * perChain := Nat.mul_pos (by omega) hperChain
  -- the others take what they can, `b` the rest
  obtain ⟨share, hle, -, hsum⟩ := exists_shares perChain (Finset.univ.erase b)
    (min total ((Finset.univ.erase b).card * perChain)) (Nat.min_le_right _ _)
  obtain ⟨a, ha, hne⟩ := Finset.exists_ne_zero_of_sum_ne_zero
    (show ∑ i ∈ Finset.univ.erase b, share i ≠ 0 by omega)
  have hab : a ≠ b := Finset.ne_of_mem_erase ha
  have hall := Finset.add_sum_erase Finset.univ share (Finset.mem_univ b)
  have hupdate := sum_update_add share b (total - min total ((Finset.univ.erase b).card * perChain))
  refine ⟨Function.update share b (total - min total ((Finset.univ.erase b).card * perChain)),
    fun i => ?_, by omega, ?_,
    a, hab, ?_⟩
  · rw [Function.update_apply]
    split_ifs
    · omega
    · exact hle i
  · rw [Function.update_self]
    omega
  · rw [Function.update_of_ne hab]
    exact hne

theorem onDone_of_queue_nil (clock : Nat → Nat) {w : World ι σ} {k : Nat} {dial : Dial ι}
    (hdial : w.dials[k]? = some dial)
    (hstop : (w.schedulers dial.sched).stopping = false) (hqueue : (w.schedulers dial.sched).queue = []) :
    w.onDone clock k = ((w.afterDone k dial).expire clock dial.sched, []) := by
  have hsame := sameQueues_afterDone w k dial
  have hempty : (((w.afterDone k dial).expire clock dial.sched).schedulers dial.sched).queue = [] :=
    (skips_expire clock _ _).queue_eq_nil ((hsame.queue _).trans hqueue)
  rw [onDone_eq clock w hdial, hsame.stopping, hstop, if_neg (by simp), drain, hempty]
  rfl

section Stranded

variable [Fintype ι] {maxTotal maxPerChain : Int} {share : ι → Nat} {w : World ι σ}

theorem Filled.enqueue_of_full (h : Filled maxTotal maxPerChain share w)
    (hfull : (∑ i, share i : Nat) = maxTotal) (b : ι)
    (vp : ValidatedPeer) : ∃ w₁, Filled maxTotal maxPerChain share w₁ ∧ w₁.dials = w.dials ∧
      (w.enqueue slowClock b vp).1 = w₁.setQueue b [vp] := by
  have hexpired := h.expire b
  have hroom : ¬ HasRoom (w.expire slowClock b) b := by
    unfold HasRoom
    rw [hexpired.pool, hfull]
    exact fun hroom => lt_irrefl _ hroom.2
  refine ⟨w.expire slowClock b, hexpired, rfl, ?_⟩
  rw [enqueue_of_forgotten (h.stopping b) (h.filterFn b) (h.forgotten b)]
  dsimp only
  rw [if_neg hroom, hexpired.queue, List.nil_append]

/-- The pool is full, so a peer of scheduler `b` has to wait; a dial of another scheduler ends, and the peer still
waits. -/
theorem Filled.stranded (h : Filled maxTotal maxPerChain share w) (haccounted : Accounted w)
    (hfull : (∑ i, share i : Nat) = maxTotal) {a b : ι} (hab : a ≠ b) (ha : share a ≠ 0) (vp : ValidatedPeer) :
    ∃ k, let w' := ((w.enqueue slowClock b vp).1.onDone slowClock k).1
      w'.releasing = [] ∧ (w'.schedulers b).stopping = false ∧ (w'.schedulers b).queue = [vp] ∧
        (w'.schedulers b).active = share b ∧ w'.pool.activeTotal = maxTotal - 1 := by
  obtain ⟨w₁, h₁, hdials, heq⟩ := h.enqueue_of_full hfull b vp
  -- a dial of `a` is in flight
  have hflight : 0 < w.inFlight a := by
    have hactive := haccounted.active a
    rw [h.active] at hactive
    omega
  obtain ⟨dial, hmem, hsched⟩ := List.countP_pos_iff.mp hflight
  obtain ⟨k, hdial⟩ := List.mem_iff_getElem?.mp hmem
  have hdial₁ : (w₁.setQueue b [vp]).dials[k]? = some dial := by
    rw [← hdial, ← hdials]
    rfl
  have hsched' : dial.sched = a := by simpa using hsched
  have hb : b ≠ dial.sched := hsched' ▸ hab.symm
  have hidle : (w₁.setQueue b [vp]).schedulers dial.sched = w₁.schedulers dial.sched := by
    rw [schedulers_setQueue, if_neg hb.symm]
  have hdone := onDone_of_queue_nil slowClock hdial₁ (hidle ▸ h₁.stopping dial.sched) (hidle ▸ h₁.queue dial.sched)
  refine ⟨k, ?_⟩
  rw [heq, hdone]
  dsimp only
  have hsame : (((w₁.setQueue b [vp]).afterDone k dial).expire slowClock dial.sched).schedulers b =
      { w₁.schedulers b with queue := [vp] } := by
    rw [schedulers_expire, if_neg hb, afterDone, schedulers_giveBack, if_neg hb, schedulers_dialDone,
      if_neg fun hvalid => hb hvalid.1, schedulers_setQueue, if_pos rfl]
  have hpool : (((w₁.setQueue b [vp]).afterDone k dial).expire slowClock dial.sched).pool =
      { w₁.pool with activeTotal := w₁.pool.activeTotal - 1 } := pool_afterDone _ k dial
  rw [hsame, hpool, h₁.pool, hfull]
  exact ⟨(releasing_afterDone _ k dial).trans h₁.releasing, h₁.stopping b, rfl, h₁.active b, rfl⟩

/-- Where schedulers compete for the slots of the pool, one that waits for a slot does not notice that another one gives
it back. -/
theorem not_neverStranded {total perChain : Nat} (hcard : 1 < Fintype.card ι) (hperChain : 0 < perChain)
    (htotal : 0 < total) (hcompete : total < Fintype.card ι * perChain) : ¬ NeverStranded ι σ total perChain := by
  intro hnever
  obtain ⟨b⟩ : Nonempty ι := Fintype.card_pos_iff.mp (by omega)
  obtain ⟨share, hle, hsum, hb, a, hab, ha⟩ := exists_full_shares htotal hperChain hcompete (b := b) hcard
  obtain ⟨actions, hstops, hfilled⟩ : ∃ actions : List (DialAction ι σ), (∀ action ∈ actions, action.isStop = false) ∧
      Filled total perChain share (run slowClock total perChain (fun _ => none) actions).1 :=
    exists_filled share (fun i => by exact_mod_cast hle i) (by omega) (makePeer 0)
  have haccounted := (keeps_accounted slowClock).run (accounted_init total perChain fun _ => none) actions
  obtain ⟨k, hreleasing, hstop, hqueue, hactive, htotal'⟩ := hfilled.stranded haccounted (by omega) hab ha (makePeer 0)
  have hcaps := hnever slowClock monotone_slowClock (fun _ => none)
    (actions ++ [.enqueue b (makePeer 0)] ++ [.onDone k])
    (by simpa [or_imp, forall_and, DialAction.isStop] using hstops)
  rw [run_concat, run_concat] at hcaps
  dsimp only [step] at hcaps
  have hcap := hcaps hreleasing b hstop (by rw [hqueue]; simp)
  rw [hactive, htotal'] at hcap
  omega

end Stranded

/-- **Queued peers.** After any calls of the schedulers of a pool and of the callbacks of their dials, a scheduler with
a peer in its queue has reached one of the caps, exactly if there is at most one scheduler, or no dial at all is
allowed, or the pool has a slot for each dial that the cap of each scheduler allows. With any caps this holds of the
runs in which no dial of one scheduler gives back a slot that another one waits for. -/
theorem never_stranded_iff (ι σ : Type) [Fintype ι] [DecidableEq ι] (maxTotal maxPerChain : Int) :
    (NeverStranded ι σ maxTotal maxPerChain ↔
      Fintype.card ι ≤ 1 ∨ maxPerChain ≤ 0 ∨ maxTotal ≤ 0 ∨ Fintype.card ι * maxPerChain ≤ maxTotal) ∧
    ∀ (clock : Nat → Nat) (filters : ι → Option FilterFn) (actions : List (DialAction ι σ)),
      (∀ before action, before ++ [action] <+: actions →
        ¬ (run clock maxTotal maxPerChain filters before).1.Bypasses action) →
      let w := (run clock maxTotal maxPerChain filters actions).1
      w.releasing = [] → ∀ i, (w.schedulers i).stopping = false → (w.schedulers i).queue ≠ [] →
        maxPerChain ≤ (w.schedulers i).active ∨ maxTotal ≤ w.pool.activeTotal := by
  refine ⟨⟨fun hnever => ?_, neverStranded_of_enough⟩, fun clock filters actions => capped_of_not_bypasses⟩
  by_contra hcompete
  simp only [not_or, not_le] at hcompete
  obtain ⟨hcard, hPerChain, hTotal, hmany⟩ := hcompete
  obtain ⟨perChain, rfl⟩ := Int.eq_ofNat_of_zero_le hPerChain.le
  obtain ⟨total, rfl⟩ := Int.eq_ofNat_of_zero_le hTotal.le
  exact not_neverStranded hcard (by omega) (by omega) (by exact_mod_cast hmany) hnever

/-- One slot for two schedulers: the first dials, a peer of the second waits, the dial of the first ends, and nobody
dials. -/
theorem queued_peer_is_stranded :
    let actions : List (DialAction Bool Unit) := [.enqueue false (makePeer 1), .enqueue true (makePeer 2), .onDone 0]
    let w := (run (fun n => n) 1 1 (fun _ => none) actions).1
    w.releasing = [] ∧ w.dials = [] ∧ (w.schedulers true).stopping = false ∧ (w.schedulers true).queue = [makePeer 2] ∧
      (w.schedulers true).active = 0 ∧ w.pool.activeTotal = 0 := by
  decide +kernel

end DevP2P.Discv4.World
