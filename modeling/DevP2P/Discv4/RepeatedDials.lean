import DevP2P.Discv4.DialCooldown

/-!
# Two dials of one node

A node is kept from being dialed again by the time of its last dial, however long the dial takes.

* `dialsTo` : the dials of a scheduler to one node that are in flight;
* `MayDial`, `mayDial_step` : a call starts no dial, or one to a node that it was asked for or that was queued;
* `InTime` : in a run, a node is asked for within the period of the history, if a dial to it is in flight;
  `dialsTo_le_one` : then there is no second dial;
* `Dialing` : one dial is in flight, and only its node was enqueued since; `exists_repeated` : from there, calls that
  start a second dial once the clock has passed the period of the history;
* `one_dial_per_node_iff` : there are never two dials of a scheduler to one node exactly if a cap allows one dial only,
  or the period does not end.
-/

namespace DevP2P.Discv4

namespace World
open DevP2P.Lib DialHistory

variable {ι σ : Type} [DecidableEq ι]

/-- The dials of scheduler `i` to a node that are in flight. -/
def dialsTo (w : World ι σ) (i : ι) (nodeId : NodeId) : Nat :=
  w.dials.countP fun d => d.sched = i ∧ d.vp.peer.nodeId = nodeId

/-- After any calls, no scheduler has two dials to one node in flight. -/
def OneDialPerNode (ι σ : Type) [DecidableEq ι] (clock : Nat → Nat) (maxTotal maxPerChain : Int) : Prop :=
  ∀ (filters : ι → Option FilterFn) (actions : List (DialAction ι σ)) (i : ι) (nodeId : NodeId),
    (run clock maxTotal maxPerChain filters actions).1.dialsTo i nodeId ≤ 1

/-! ## One dial at a time -/

theorem dialsTo_le_inFlight (w : World ι σ) (i : ι) (nodeId : NodeId) : w.dialsTo i nodeId ≤ w.inFlight i := by
  apply List.countP_mono_left
  intro d _ hd
  simp only [decide_eq_true_eq] at hd ⊢
  exact hd.1

theorem oneDialPerNode_of_cap (clock : Nat → Nat) {maxTotal maxPerChain : Int} (hcap : maxPerChain ≤ 1 ∨ maxTotal ≤ 1) :
    OneDialPerNode ι σ clock maxTotal maxPerChain := by
  intro filters actions i nodeId
  have haccounted : Accounted (run clock maxTotal maxPerChain filters actions).1 :=
    (keeps_accounted clock).run (accounted_init maxTotal maxPerChain filters) actions
  have hcapped : Capped maxTotal maxPerChain (run clock maxTotal maxPerChain filters actions).1 :=
    (keeps_capped clock maxTotal maxPerChain).run (capped_init maxTotal maxPerChain filters) actions
  have hle := dialsTo_le_inFlight (run clock maxTotal maxPerChain filters actions).1 i nodeId
  rcases hcap with hcap | hcap
  · have hactive := hcapped.active_le i
    rw [haccounted.active] at hactive
    omega
  · have htotal := hcapped.activeTotal_le
    have hlength : (run clock maxTotal maxPerChain filters actions).1.inFlight i ≤ _ := List.countP_le_length
    rw [haccounted.activeTotal] at htotal
    omega

/-! ## Dials within the period -/

/-- The dials in flight are those that the call does not end. -/
def left (w : World ι σ) : DialAction ι σ → World ι σ
  | .onDone k => { w with dials := w.dials.eraseIdx k }
  | _ => w

/-- The call enqueues the node, or it may find the node in a queue. -/
def Wanted (w : World ι σ) (i : ι) (nodeId : NodeId) : DialAction ι σ → Prop
  | .enqueue sched vp => sched = i ∧ vp.peer.nodeId = nodeId
  | _ => ∃ vp ∈ (w.schedulers i).queue, vp.peer.nodeId = nodeId

/-- Whenever a node is enqueued or in a queue while a dial to it is in flight, it was dialed less than the period before
the last time that the call has read. -/
def InTime (clock : Nat → Nat) (maxTotal maxPerChain : Int) (filters : ι → Option FilterFn)
    (actions : List (DialAction ι σ)) : Prop :=
  ∀ before action, before ++ [action] <+: actions →
    let w := (run clock maxTotal maxPerChain filters before).1
    ∀ i nodeId, w.Wanted i nodeId action → (w.left action).dialsTo i nodeId ≠ 0 →
      ∃ start ∈ dialStarts clock maxTotal maxPerChain filters (fun _ => kDefaultDialHistoryExpiry) before,
        start.sched = i ∧ start.nodeId = nodeId ∧
          clock ((w.step clock action).1.readings - 1) < start.time + kDefaultDialHistoryExpiry

/-- The dials to a node stay as they are, or it is wanted and one more is started. -/
def MayDial (i : ι) (nodeId : NodeId) (wanted : Prop) (w : World ι σ)
    (next : World ι σ × List (DialEffect ι σ)) : Prop :=
  next.1.dialsTo i nodeId = w.dialsTo i nodeId ∨
    wanted ∧ (∃ vp, vp.peer.nodeId = nodeId ∧ .dial i vp ∈ next.2) ∧ next.1.dialsTo i nodeId = w.dialsTo i nodeId + 1

section InTime

variable {clock : Nat → Nat} {w w' : World ι σ} {i : ι} {nodeId : NodeId}

theorem SameSlots.dialsTo_eq (h : SameSlots w w') : w'.dialsTo i nodeId = w.dialsTo i nodeId := by
  rw [dialsTo, h.dials, dialsTo]

theorem mayDial_startDial {wanted : Prop} (hskips : Skips w w') {j : ι} {vp : ValidatedPeer}
    (hwanted : j = i → vp.peer.nodeId = nodeId → wanted) {next : World ι σ × List (DialEffect ι σ)}
    (hsame : SameSlots (w'.startDial clock j vp) next.1) (hdial : .dial j vp ∈ next.2) :
    MayDial i nodeId wanted w next := by
  have hcount : next.1.dialsTo i nodeId = w.dialsTo i nodeId + if j = i ∧ vp.peer.nodeId = nodeId then 1 else 0 := by
    rw [hsame.dialsTo_eq, ← hskips.dialsTo_eq, dialsTo, dials_startDial, List.countP_append, List.countP_singleton]
    simp only [decide_eq_true_eq, dialsTo]
  split_ifs at hcount with heq
  · obtain ⟨rfl, hnode⟩ := heq
    exact .inr ⟨hwanted rfl hnode, ⟨vp, hnode, hdial⟩, hcount⟩
  · exact .inl hcount

theorem dialsTo_left_le (w : World ι σ) (action : DialAction ι σ) (i : ι) (nodeId : NodeId) :
    (w.left action).dialsTo i nodeId ≤ w.dialsTo i nodeId := by
  cases action with
  | onDone k => exact (List.eraseIdx_sublist _ _).countP_le
  | _ => exact le_rfl

theorem mayDial_enqueue (w : World ι σ) (j : ι) (vp : ValidatedPeer) :
    MayDial i nodeId (j = i ∧ vp.peer.nodeId = nodeId) w (w.enqueue clock j vp) := by
  obtain ⟨w', hskips, heq | ⟨-, -, heq⟩ | ⟨-, -, heq⟩⟩ := enqueue_cases clock w j vp <;> rw [heq]
  · exact .inl hskips.dialsTo_eq
  · exact mayDial_startDial hskips And.intro (Skips.refl _).toSameSlots (List.mem_singleton_self _)
  · exact .inl ((sameSlots_setQueue w' j _).dialsTo_eq.trans hskips.dialsTo_eq)

theorem mayDial_drain (w : World ι σ) (j : ι) :
    MayDial i nodeId (∃ vp ∈ (w.schedulers i).queue, vp.peer.nodeId = nodeId) w (w.drain clock j) := by
  obtain ⟨w', hskips, ⟨-, heq⟩ | ⟨vp, hmem, -, heq⟩⟩ := drain_cases clock w j <;> rw [heq]
  · exact .inl hskips.dialsTo_eq
  · refine mayDial_startDial hskips (fun hj hnode => ?_) (sameSlots_releasing _ _) (List.mem_singleton_self _)
    exact ⟨vp, hj ▸ hmem, hnode⟩

theorem mayDial_onDone (w : World ι σ) (k : Nat) :
    MayDial i nodeId (∃ vp ∈ (w.schedulers i).queue, vp.peer.nodeId = nodeId) (w.left (.onDone k))
      (w.onDone clock k) := by
  cases hdial : w.dials[k]? with
  | none =>
      left
      rw [World.onDone, hdial, World.left, dialsTo, dialsTo,
        List.eraseIdx_of_length_le (List.getElem?_eq_none_iff.mp hdial)]
  | some dial =>
      have hdone : (w.afterDone k dial).dialsTo i nodeId = (w.left (.onDone k)).dialsTo i nodeId := by
        rw [dialsTo, dials_afterDone]
        rfl
      have hskips := skips_expire clock (w.afterDone k dial) dial.sched
      have hqueue := (sameQueues_afterDone w k dial).queue i ▸ (hskips.queue i).subset
      have hdrain : MayDial i nodeId _ _ (World.drain clock _ _) :=
        mayDial_drain ((w.afterDone k dial).expire clock dial.sched) dial.sched
      rw [onDone_eq clock w hdial]
      split_ifs
      · exact .inl hdone
      · rw [MayDial, hskips.dialsTo_eq, hdone] at hdrain
        refine hdrain.imp_right fun hstart => ⟨?_, hstart.2⟩
        obtain ⟨vp, hmem, hnode⟩ := hstart.1
        exact ⟨vp, hqueue hmem, hnode⟩

theorem dialsTo_onConnected (w : World ι σ) (k : Nat) (session : σ) (i : ι) (nodeId : NodeId) :
    (w.onConnected k session).dialsTo i nodeId = w.dialsTo i nodeId := by
  unfold World.onConnected
  cases hdial : w.dials[k]? with
  | none => rfl
  | some dial =>
      dsimp only
      split_ifs
      · rfl
      · have hcount := countP_set_add (fun d : Dial ι => d.sched = i ∧ d.vp.peer.nodeId = nodeId) hdial
          { dial with wasValidated := true }
        rw [dialsTo, dials_dialConnected, dialsTo]
        dsimp only at hcount
        omega

theorem mayDial_step (clock : Nat → Nat) (w : World ι σ) (action : DialAction ι σ) (i : ι) (nodeId : NodeId) :
    MayDial i nodeId (w.Wanted i nodeId action) (w.left action) (w.step clock action) := by
  cases action with
  | enqueue sched vp => exact mayDial_enqueue w sched vp
  | stop sched alive => exact .inl (sameSlots_stop w sched alive).dialsTo_eq
  | onConnected k session => exact .inl (dialsTo_onConnected w k session i nodeId)
  | onDone k => exact mayDial_onDone w k
  | spawnReturns =>
      show MayDial i nodeId _ w (w.spawnReturns clock)
      unfold World.spawnReturns
      cases w.releasing with
      | nil => exact .inl rfl
      | cons i releasing => exact mayDial_drain { w with releasing } i

section Run

variable {maxTotal maxPerChain : Int} {filters : ι → Option FilterFn} {actions : List (DialAction ι σ)}

theorem fst_timed :
    (runEffects (timedStep clock) (initWithExpiry maxTotal maxPerChain filters fun _ => kDefaultDialHistoryExpiry)
      actions).1 = (run clock maxTotal maxPerChain filters actions).1 := by
  rw [run, runEffects_fst, runEffects_fst]
  rfl

theorem dialStarts_concat (action : DialAction ι σ) :
    dialStarts clock maxTotal maxPerChain filters (fun _ => kDefaultDialHistoryExpiry) (actions ++ [action]) =
      dialStarts clock maxTotal maxPerChain filters (fun _ => kDefaultDialHistoryExpiry) actions ++
        startsAt clock ((run clock maxTotal maxPerChain filters actions).1.step clock action) := by
  rw [dialStarts, runEffects_append, runEffects_singleton, fst_timed]
  rfl

omit [DecidableEq ι] in
theorem mem_startsAt {next : World ι σ × List (DialEffect ι σ)}
    (h : ∃ vp, vp.peer.nodeId = nodeId ∧ .dial i vp ∈ next.2) :
    ⟨clock (next.1.readings - 1), i, nodeId⟩ ∈ startsAt clock next := by
  obtain ⟨vp, rfl, hdial⟩ := h
  exact List.mem_filterMap.mpr ⟨_, hdial, rfl⟩

theorem exists_start (h : (run clock maxTotal maxPerChain filters actions).1.dialsTo i nodeId ≠ 0) :
    ∃ start ∈ dialStarts clock maxTotal maxPerChain filters (fun _ => kDefaultDialHistoryExpiry) actions,
      start.sched = i ∧ start.nodeId = nodeId := by
  induction actions using List.reverseRecOn with
  | nil => exact absurd rfl h
  | append_singleton actions action ih =>
      have hle := dialsTo_left_le (run clock maxTotal maxPerChain filters actions).1 action i nodeId
      rw [run_concat] at h
      rw [dialStarts_concat]
      rcases mayDial_step clock (run clock maxTotal maxPerChain filters actions).1 action i nodeId with
        hsame | ⟨-, hdial, -⟩
      · obtain ⟨start, hmem, hstart⟩ := ih (by omega)
        exact ⟨start, List.mem_append_left _ hmem, hstart⟩
      · exact ⟨_, List.mem_append_right _ (mem_startsAt hdial), rfl, rfl⟩

/-- A second dial would have been started within the period. -/
theorem dialsTo_le_one (hmono : Monotone clock) (h : InTime clock maxTotal maxPerChain filters actions) (i : ι)
    (nodeId : NodeId) : (run clock maxTotal maxPerChain filters actions).1.dialsTo i nodeId ≤ 1 := by
  induction actions using List.reverseRecOn generalizing i nodeId with
  | nil => exact Nat.zero_le _
  | append_singleton actions action ih =>
      have hbefore := ih (fun before next hle => h before next (hle.trans (List.prefix_append _ _))) i nodeId
      have hle := dialsTo_left_le (run clock maxTotal maxPerChain filters actions).1 action i nodeId
      have hspaced := spaced_run hmono maxTotal maxPerChain filters (fun _ => kDefaultDialHistoryExpiry)
        (actions ++ [action])
      have hlast := h actions action (List.prefix_refl _) i nodeId
      rw [run_concat]
      rw [dialStarts_concat] at hspaced
      rcases mayDial_step clock (run clock maxTotal maxPerChain filters actions).1 action i nodeId with
        hsame | ⟨hwanted, hdial, hnext⟩
      · omega
      · have hnone : ((run clock maxTotal maxPerChain filters actions).1.left action).dialsTo i nodeId = 0 := by
          by_contra hne
          obtain ⟨start, hmem, hsched, hnode, hyoung⟩ := hlast hwanted hne
          have hapart := (List.pairwise_append.mp hspaced.apart).2.2 start hmem _ (mem_startsAt hdial) hsched hnode
          dsimp only at hapart
          omega
        omega

end Run

/-- No call comes after the period, if the clock stays within it. -/
theorem oneDialPerNode_of_long (hmono : Monotone clock) (hlong : ∀ n, clock n < clock 1 + kDefaultDialHistoryExpiry)
    (maxTotal maxPerChain : Int) : OneDialPerNode ι σ clock maxTotal maxPerChain := by
  intro filters actions
  refine dialsTo_le_one hmono fun before action _ i nodeId _ hne => ?_
  have hle := dialsTo_left_le (run clock maxTotal maxPerChain filters before).1 action i nodeId
  obtain ⟨start, hmem, hsched, hnode⟩ :=
    exists_start (show (run clock maxTotal maxPerChain filters before).1.dialsTo i nodeId ≠ 0 by omega)
  have hspaced := spaced_run hmono maxTotal maxPerChain filters (fun _ => kDefaultDialHistoryExpiry) before
  exact ⟨start, hmem, hsched, hnode, (hlong _).trans_le (Nat.add_le_add_right (hspaced.times start hmem) _)⟩

end InTime

/-! ## A period that ends -/

/-- Scheduler `i` has one dial in flight and was asked for nothing else. -/
structure Dialing (clock : Nat → Nat) (maxTotal maxPerChain : Int) (i : ι) (vp : ValidatedPeer)
    (w : World ι σ) : Prop where
  dials : w.dials = [⟨i, vp, false⟩]
  pool : w.pool = ⟨maxTotal, maxPerChain, 1⟩
  active : (w.schedulers i).active = 1
  stopping : (w.schedulers i).stopping = false
  filterFn : (w.schedulers i).filterFn = none
  lookup : (w.schedulers i).dialHistory.entries.lookup vp.peer.nodeId = some (clock 1 + kDefaultDialHistoryExpiry)

section Dialing

variable {clock : Nat → Nat} {maxTotal maxPerChain : Int} {w : World ι σ} {i : ι} {vp : ValidatedPeer}

theorem enqueue_of_running (hstop : (w.schedulers i).stopping = false) (hfilter : (w.schedulers i).filterFn = none) :
    w.enqueue clock i vp =
      let w' := (w.expire clock i).looked i vp
      if (w.expire clock i).contains clock i vp then (w', [])
      else if HasRoom (w.expire clock i) i then (w'.startDial clock i vp, [.dial i vp])
      else (w'.setQueue i (((w.expire clock i).schedulers i).queue ++ [vp]), []) := by
  unfold enqueue
  rw [if_neg (by simp [hstop]), if_neg (by simp [hfilter])]
  rfl

theorem dialing_init (hPerChain : 0 < maxPerChain) (hTotal : 0 < maxTotal) (i : ι) (vp : ValidatedPeer) :
    Dialing clock maxTotal maxPerChain i vp
      ((init maxTotal maxPerChain fun _ => none : World ι σ).enqueue clock i vp).1 := by
  rw [enqueue_of_running rfl rfl]
  dsimp only
  generalize hw : expire clock (init maxTotal maxPerChain fun _ => none : World ι σ) i = w
  have hsched : w.schedulers i = { dialHistory := DialHistory.expire {} (clock 0) } := hw ▸ if_pos rfl
  have hnew : w.contains clock i vp = false := by
    unfold World.contains
    rw [hsched]
    rfl
  have hlooked : w.looked i vp = w := by
    unfold looked
    rw [hsched]
    rfl
  have hroom : w.HasRoom i := by
    rw [HasRoom, hsched, ← hw]
    exact ⟨hPerChain, hTotal⟩
  rw [hnew, if_neg (by simp), if_pos hroom, hlooked]
  subst hw
  refine ⟨rfl, rfl, ?_, ?_, ?_, ?_⟩ <;> rw [schedulers_startDial, if_pos rfl, hsched]
  · rfl
  · exact AList.lookup_insert _

theorem Dialing.contains_eq (h : Dialing clock maxTotal maxPerChain i vp w) (hmono : Monotone clock) :
    (w.expire clock i).contains clock i vp = decide (clock (w.readings + 1) < clock 1 + kDefaultDialHistoryExpiry) := by
  have hreadings : (w.expire clock i).readings = w.readings + 1 := rfl
  rw [World.contains, schedulers_expire, if_pos rfl, hreadings, contains_expire (hmono (Nat.le_succ _)),
    DialHistory.contains, h.lookup]

theorem Dialing.enqueue_of_lt (h : Dialing clock maxTotal maxPerChain i vp w) (hmono : Monotone clock)
    (hearly : clock (w.readings + 1) < clock 1 + kDefaultDialHistoryExpiry) :
    Dialing clock maxTotal maxPerChain i vp (w.enqueue clock i vp).1 ∧
      (w.enqueue clock i vp).1.readings = w.readings + 2 := by
  have hlookup : ((w.expire clock i).schedulers i).dialHistory.entries.lookup vp.peer.nodeId =
      some (clock 1 + kDefaultDialHistoryExpiry) := by
    rw [schedulers_expire, if_pos rfl]
    exact lookup_expire.mpr ⟨h.lookup, (hmono (Nat.le_succ _)).trans_lt hearly⟩
  have hreadings : ((w.expire clock i).looked i vp).readings = w.readings + 2 := by
    unfold looked
    rw [hlookup]
    rfl
  rw [enqueue_of_running h.stopping h.filterFn]
  dsimp only
  rw [h.contains_eq hmono, if_pos (decide_eq_true hearly)]
  refine ⟨⟨h.dials, h.pool, ?_, ?_, ?_, hlookup⟩, hreadings⟩
  · exact ((skips_expire clock w i).active i).trans h.active
  · exact ((skips_expire clock w i).stopping i).trans h.stopping
  · show ((w.expire clock i).schedulers i).filterFn = none
    rw [schedulers_expire, if_pos rfl]
    exact h.filterFn

theorem Dialing.enqueue_of_ge (h : Dialing clock maxTotal maxPerChain i vp w) (hmono : Monotone clock)
    (hPerChain : 1 < maxPerChain) (hTotal : 1 < maxTotal)
    (hlate : clock 1 + kDefaultDialHistoryExpiry ≤ clock (w.readings + 1)) :
    (w.enqueue clock i vp).1.dials = [⟨i, vp, false⟩, ⟨i, vp, false⟩] := by
  have hroom : HasRoom (w.expire clock i) i := by
    rw [(skips_expire clock w i).hasRoom_iff, HasRoom, h.active, h.pool]
    exact ⟨hPerChain, hTotal⟩
  rw [enqueue_of_running h.stopping h.filterFn]
  dsimp only
  rw [h.contains_eq hmono, if_neg (by simpa using hlate), if_pos hroom, dials_startDial]
  show w.dials ++ _ = _
  rw [h.dials]
  rfl

theorem exists_repeated (hmono : Monotone clock) (hPerChain : 1 < maxPerChain) (hTotal : 1 < maxTotal) {n : Nat}
    (hlate : clock 1 + kDefaultDialHistoryExpiry ≤ clock n) {actions : List (DialAction ι σ)}
    (h : Dialing clock maxTotal maxPerChain i vp (run clock maxTotal maxPerChain (fun _ => none) actions).1) :
    ∃ more : List (DialAction ι σ), (run clock maxTotal maxPerChain (fun _ => none) (actions ++ more)).1.dials =
      [⟨i, vp, false⟩, ⟨i, vp, false⟩] := by
  induction hleft : n - (run clock maxTotal maxPerChain (fun _ => none) actions).1.readings
    using Nat.strong_induction_on generalizing actions with
  | _ left ih =>
      by_cases hearly :
          clock ((run clock maxTotal maxPerChain (fun _ => none) actions).1.readings + 1) <
            clock 1 + kDefaultDialHistoryExpiry
      · obtain ⟨hnext, hreadings⟩ := h.enqueue_of_lt hmono hearly
        have hlt : (run clock maxTotal maxPerChain (fun _ => none) actions).1.readings + 1 < n :=
          hmono.reflect_lt (hearly.trans_le hlate)
        have hrun := run_concat clock maxTotal maxPerChain (fun _ => none) actions (.enqueue i vp)
        obtain ⟨more, hmore⟩ := ih _ (by rw [hrun]; dsimp only [step]; omega) (hrun ▸ hnext) rfl
        exact ⟨.enqueue i vp :: more, by simpa using hmore⟩
      · refine ⟨[.enqueue i vp], ?_⟩
        rw [run_concat]
        exact h.enqueue_of_ge hmono hPerChain hTotal (Nat.not_lt.mp hearly)

end Dialing

/-- **One dial per node.** After any calls of the schedulers of a pool and of the callbacks of their dials, no scheduler
has two dials to one node in flight, exactly if one of the caps allows a single dial, or the clock stays within the
period of the history from the first time at which a dial can be recorded. On any clock and with any caps this holds of
the runs in which no node is enqueued or waits in a queue when a dial to it has been in flight for the period. -/
theorem one_dial_per_node_iff (ι σ : Type) [DecidableEq ι] [Nonempty ι] (clock : Nat → Nat) (hmono : Monotone clock)
    (maxTotal maxPerChain : Int) :
    (OneDialPerNode ι σ clock maxTotal maxPerChain ↔
      maxPerChain ≤ 1 ∨ maxTotal ≤ 1 ∨ ∀ n, clock n < clock 1 + kDefaultDialHistoryExpiry) ∧
    ∀ (filters : ι → Option FilterFn) (actions : List (DialAction ι σ)),
      InTime clock maxTotal maxPerChain filters actions →
        ∀ i nodeId, (run clock maxTotal maxPerChain filters actions).1.dialsTo i nodeId ≤ 1 := by
  refine ⟨⟨?_, ?_⟩, fun filters actions => dialsTo_le_one hmono⟩
  · intro hone
    by_contra hfree
    simp only [not_or, not_le, not_forall, not_lt] at hfree
    obtain ⟨hPerChain, hTotal, n, hlate⟩ := hfree
    obtain ⟨i⟩ := ‹Nonempty ι›
    have hdialing : Dialing clock maxTotal maxPerChain i (makePeer 0)
        (run clock maxTotal maxPerChain (fun _ => none) [DialAction.enqueue (σ := σ) i (makePeer 0)]).1 :=
      dialing_init (by omega) (by omega) i (makePeer 0)
    obtain ⟨more, hdials⟩ := exists_repeated hmono hPerChain hTotal hlate hdialing
    have hle := hone (fun _ => none) ([.enqueue i (makePeer 0)] ++ more) i (makePeer 0).peer.nodeId
    rw [dialsTo, hdials] at hle
    simp at hle
  · rintro (hPerChain | hTotal | hlong)
    · exact oneDialPerNode_of_cap clock (.inl hPerChain)
    · exact oneDialPerNode_of_cap clock (.inr hTotal)
    · exact oneDialPerNode_of_long hmono hlong maxTotal maxPerChain

/-- On a clock that goes on for 20 seconds, one at each reading, there is never a second dial. Eight seconds at each
reading: a node is enqueued again while its dial is in flight, and once more when it is over. -/
theorem one_dial_per_node_iff_twenty :
    OneDialPerNode Unit Unit (fun n => min n 20 * 1000000000) 2 2 ∧
      let actions : List (DialAction Unit Unit) :=
        [.enqueue () (makePeer 1), .enqueue () (makePeer 1), .onDone 0, .enqueue () (makePeer 1)]
      ∀ i nodeId, (run (fun n => n * 8000000000) 2 2 (fun _ => none) actions).1.dialsTo i nodeId ≤ 1 := by
  refine ⟨(one_dial_per_node_iff Unit Unit (fun n => min n 20 * 1000000000) ?_ 2 2).1.mpr ?_,
    (one_dial_per_node_iff Unit Unit (fun n => n * 8000000000) ?_ 2 2).2 _ _ ?_⟩
  · intro a b h
    dsimp only
    omega
  · refine .inr (.inr fun n => ?_)
    unfold kDefaultDialHistoryExpiry
    omega
  · intro a b h
    dsimp only
    omega
  · rintro before action ⟨rest, hrest⟩ w i nodeId hwanted hne
    rcases before with _ | ⟨a, _ | ⟨b, _ | ⟨c, _ | ⟨d, before⟩⟩⟩⟩ <;> simp at hrest
    · obtain ⟨rfl, -⟩ := hrest
      exact absurd rfl hne
    · obtain ⟨rfl, rfl, -⟩ := hrest
      obtain ⟨-, rfl⟩ := hwanted
      exact ⟨⟨8000000000, (), (makePeer 1).peer.nodeId⟩, by decide +kernel, rfl, rfl, by decide +kernel⟩
    · obtain ⟨rfl, rfl, rfl, -⟩ := hrest
      exact absurd rfl hne
    · obtain ⟨rfl, rfl, rfl, rfl, -⟩ := hrest
      exact absurd rfl hne

/-- A node is enqueued again 35 seconds after its dial was started, while the dial is still in flight. -/
theorem second_dial_to_one_node :
    let clock : Nat → Nat := fun n => if n < 2 then 0 else 35000000000
    let actions : List (DialAction Unit Unit) := [.enqueue () (makePeer 1), .enqueue () (makePeer 1)]
    (run clock 2 2 (fun _ => none) actions).1.dials = [⟨(), makePeer 1, false⟩, ⟨(), makePeer 1, false⟩] := by
  decide +kernel

end World

end DevP2P.Discv4
