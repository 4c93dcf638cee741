import DevP2P.Discv4.DialSlots

/-!
# The time between two dials of a node

* `contains_add_self`, `contains_expire` : what a call of the history changes for later queries;
* `Tracks` : the history answers as the times of the latest calls of `add` say; `HistoryCall`, `latestAdd`,
  `tracks_calls` : after any calls it does;
* `DialStart`, `dialStarts` : the dials of a run with their times;
* `Spaced` : the dials so far, which the histories track; `spaced_run` : after any calls;
* `dial_cooldown` : two dials of one scheduler to one node are at least the period of its history apart.
-/

namespace DevP2P.Discv4
open DevP2P.Lib

/-! ## The history -/

namespace DialHistory

variable {h : DialHistory} {nodeId other : NodeId} {now t : Nat}

theorem lookup_expire {time : Nat} : (h.expire now).entries.lookup nodeId = some time ↔
    h.entries.lookup nodeId = some time ∧ now < time := by
  rw [← Option.mem_def, ← Option.mem_def, AList.mem_lookup_iff, AList.mem_lookup_iff, expire, List.mem_filter]
  simp only [ge_iff_le, not_le, decide_eq_true_eq]

theorem contains_iff : h.contains t nodeId = true ↔ ∃ time, h.entries.lookup nodeId = some time ∧ t < time := by
  unfold contains
  cases h.entries.lookup nodeId with
  | none => simp
  | some time => simp

theorem contains_add_self : (h.add now nodeId).contains t nodeId = true ↔ t < now + h.expiry := by
  have hlookup : (h.add now nodeId).entries.lookup nodeId = some (now + h.expiry) := AList.lookup_insert _
  rw [contains_iff, hlookup]
  simp

theorem contains_add_of_ne (hne : other ≠ nodeId) : (h.add now nodeId).contains t other = h.contains t other := by
  unfold contains
  rw [show (h.add now nodeId).entries.lookup other = h.entries.lookup other from AList.lookup_insert_ne hne]

/-- What `expire` removes would not have been found any more. -/
theorem contains_expire (hle : now ≤ t) : (h.expire now).contains t nodeId = h.contains t nodeId := by
  rw [Bool.eq_iff_iff, contains_iff, contains_iff]
  constructor
  · rintro ⟨time, hlookup, hlt⟩
    exact ⟨time, (lookup_expire.mp hlookup).1, hlt⟩
  · rintro ⟨time, hlookup, hlt⟩
    exact ⟨time, lookup_expire.mpr ⟨hlookup, hle.trans_lt hlt⟩, hlt⟩

/-- From `now` on, a node is found exactly in the period behind its latest `add`, at the time that `latest` says. -/
def Tracks (h : DialHistory) (latest : NodeId → Option Nat) (now : Nat) : Prop :=
  ∀ nodeId t, now ≤ t → (h.contains t nodeId = true ↔ ∃ a, latest nodeId = some a ∧ t < a + h.expiry)

variable {latest : NodeId → Option Nat} {now' : Nat}

theorem tracks_new (expiry now : Nat) : Tracks { expiry } (fun _ => none) now := fun _ _ _ => by
  simp [contains_iff]

theorem Tracks.mono (htracks : Tracks h latest now) (hle : now ≤ now') : Tracks h latest now' :=
  fun nodeId t ht => htracks nodeId t (hle.trans ht)

theorem Tracks.expire (htracks : Tracks h latest now) (hle : now ≤ now') : Tracks (h.expire now') latest now' := by
  intro nodeId t ht
  rw [contains_expire ht]
  exact htracks nodeId t (hle.trans ht)

theorem Tracks.add (htracks : Tracks h latest now) (hle : now ≤ now') (nodeId : NodeId) :
    Tracks (h.add now' nodeId) (Function.update latest nodeId (some now')) now' := by
  intro other t ht
  by_cases hne : other = nodeId
  · subst hne
    rw [contains_add_self, Function.update_self]
    simp [DialHistory.add]
  · rw [contains_add_of_ne hne, Function.update_of_ne hne]
    exact htracks other t (hle.trans ht)

/-! ### Sequences of calls -/

/-- A call, at the time it reads from the clock. -/
inductive HistoryCall
  | add (now : Nat) (nodeId : NodeId)
  | expire (now : Nat)

def HistoryCall.time : HistoryCall → Nat
  | .add now _ => now
  | .expire now => now

def apply (h : DialHistory) : HistoryCall → DialHistory
  | .add now nodeId => h.add now nodeId
  | .expire now => h.expire now

/-- The times of the calls of `add`, the latest one for each node. -/
def latestAdd (calls : List HistoryCall) (nodeId : NodeId) : Option Nat :=
  (calls.filterMap fun call => match call with
    | .add now nodeId' => if nodeId' = nodeId then some now else none
    | .expire _ => none).getLast?

theorem latestAdd_add (calls : List HistoryCall) (now : Nat) (nodeId : NodeId) :
    latestAdd (calls ++ [.add now nodeId]) = Function.update (latestAdd calls) nodeId (some now) := by
  funext other
  unfold latestAdd
  rw [List.filterMap_append]
  by_cases hne : nodeId = other
  · simp [hne]
  · simp [hne, Function.update_of_ne (Ne.symm hne)]

theorem latestAdd_expire (calls : List HistoryCall) (now : Nat) :
    latestAdd (calls ++ [.expire now]) = latestAdd calls := by
  funext other
  simp [latestAdd]

theorem expiry_calls (expiry : Nat) (calls : List HistoryCall) : (calls.foldl apply { expiry }).expiry = expiry := by
  induction calls using List.reverseRecOn with
  | nil => rfl
  | append_singleton calls call ih =>
      rw [List.foldl_append]
      cases call <;> exact ih

theorem tracks_calls (expiry : Nat) {calls : List HistoryCall} {now : Nat}
    (htimes : (calls.map HistoryCall.time ++ [now]).Pairwise (· ≤ ·)) :
    Tracks (calls.foldl apply { expiry }) (latestAdd calls) now := by
  induction calls using List.reverseRecOn generalizing now with
  | nil => exact tracks_new expiry now
  | append_singleton calls call ih =>
      rw [List.map_append, List.map_singleton] at htimes
      obtain ⟨hbefore, -, hle⟩ := List.pairwise_append.mp htimes
      have hcall : call.time ≤ now := hle _ (List.mem_append_right _ (List.mem_singleton_self _)) _
        (List.mem_singleton_self _)
      have htracks := ih hbefore
      rw [List.foldl_append]
      cases call with
      | add now' nodeId =>
          rw [latestAdd_add]
          exact (htracks.add le_rfl nodeId).mono hcall
      | expire now' =>
          rw [latestAdd_expire]
          exact (htracks.expire le_rfl).mono hcall

end DialHistory

/-! ## The dials of a run -/

structure DialStart (ι : Type) where
  time : Nat
  sched : ι
  nodeId : NodeId
deriving DecidableEq

namespace World
open DialHistory

variable {ι σ : Type} [DecidableEq ι]

/-- New schedulers whose histories have the periods `expiries`. -/
def initWithExpiry (maxTotal maxPerChain : Int) (filters : ι → Option FilterFn) (expiries : ι → Nat) : World ι σ :=
  { (init maxTotal maxPerChain filters : World ι σ) with
    schedulers := fun i => { filterFn := filters i, dialHistory := { expiry := expiries i } } }

/-- The dials that a call has started; the last time it has read from the clock is the one for `add`. -/
def startsAt (clock : Nat → Nat) (next : World ι σ × List (DialEffect ι σ)) : List (DialStart ι) :=
  next.2.filterMap fun effect => match effect with
    | .dial sched vp => some ⟨clock (next.1.readings - 1), sched, vp.peer.nodeId⟩
    | .disconnect _ => none

def timedStep (clock : Nat → Nat) (w : World ι σ) (action : DialAction ι σ) : World ι σ × List (DialStart ι) :=
  ((w.step clock action).1, startsAt clock (w.step clock action))

def dialStarts (clock : Nat → Nat) (maxTotal maxPerChain : Int) (filters : ι → Option FilterFn) (expiries : ι → Nat)
    (actions : List (DialAction ι σ)) : List (DialStart ι) :=
  (runEffects (timedStep clock) (initWithExpiry maxTotal maxPerChain filters expiries) actions).2

/-- Dials of one scheduler to one node are the period of its history apart. -/
def Apart (expiries : ι → Nat) (a b : DialStart ι) : Prop :=
  a.sched = b.sched → a.nodeId = b.nodeId → a.time + expiries a.sched ≤ b.time

/-- The dials `log` were started, and the histories know the latest one to each node. -/
structure Spaced (clock : Nat → Nat) (expiries : ι → Nat) (w : World ι σ) (log : List (DialStart ι)) : Prop where
  expiry : ∀ i, (w.schedulers i).dialHistory.expiry = expiries i
  tracked : ∀ i, ∃ latest, Tracks (w.schedulers i).dialHistory latest (clock w.readings) ∧
    ∀ start ∈ log, start.sched = i → ∃ a, latest start.nodeId = some a ∧ start.time ≤ a
  apart : log.Pairwise (Apart expiries)
  begun : w.releasing = [] ∨ 1 ≤ w.readings
  times : ∀ start ∈ log, clock 1 ≤ start.time

/-- Time has passed, and histories may have been pruned. -/
structure Elapses (clock : Nat → Nat) (w w' : World ι σ) : Prop where
  readings : w.readings ≤ w'.readings
  releasing : w'.releasing = w.releasing
  history : ∀ i, (w'.schedulers i).dialHistory = (w.schedulers i).dialHistory ∨
    ∃ r, w.readings ≤ r ∧ r ≤ w'.readings ∧ (w'.schedulers i).dialHistory =
      (w.schedulers i).dialHistory.expire (clock r)

section Spaced

variable {clock : Nat → Nat} {expiries : ι → Nat} {w w' : World ι σ} {log : List (DialStart ι)} {i : ι}

omit [DecidableEq ι] in
theorem elapses_looked (w : World ι σ) (i : ι) (vp : ValidatedPeer) : Elapses clock w (w.looked i vp) :=
  ⟨Nat.le_add_right _ _, rfl, fun _ => .inl rfl⟩

theorem elapses_expire (w : World ι σ) (i : ι) : Elapses clock w (w.expire clock i) := by
  refine ⟨Nat.le_succ _, rfl, fun j => ?_⟩
  rw [schedulers_expire]
  split_ifs
  · exact .inr ⟨w.readings, le_rfl, Nat.le_succ _, rfl⟩
  · exact .inl rfl

omit [DecidableEq ι] in
theorem elapses_of_history (hreadings : w'.readings = w.readings) (hreleasing : w'.releasing = w.releasing)
    (hhistory : ∀ j, (w'.schedulers j).dialHistory = (w.schedulers j).dialHistory) : Elapses clock w w' :=
  ⟨hreadings.ge, hreleasing, fun j => .inl (hhistory j)⟩

theorem elapses_setQueue (w : World ι σ) (i : ι) (queue : List ValidatedPeer) : Elapses clock w (w.setQueue i queue) :=
  elapses_of_history rfl rfl fun j => by
    rw [schedulers_setQueue]
    split_ifs <;> rfl

theorem elapses_stop (w : World ι σ) (i : ι) (alive : σ → Bool) : Elapses clock w (w.stop i alive).1 :=
  elapses_of_history rfl rfl fun j => by
    rw [schedulers_stop]
    split_ifs <;> rfl

theorem elapses_dialConnected (w : World ι σ) (k : Nat) (dial : Dial ι) (session : σ) :
    Elapses clock w (w.dialConnected k dial session) :=
  elapses_of_history rfl rfl fun j => by
    rw [schedulers_dialConnected]
    split_ifs <;> rfl

section Clock

variable (hmono : Monotone clock)
include hmono

omit [DecidableEq ι] in
theorem Spaced.elapses (h : Spaced clock expiries w log) (helapses : Elapses clock w w') :
    Spaced clock expiries w' log := by
  refine ⟨fun i => ?_, fun i => ?_, h.apart, ?_, h.times⟩
  · rcases helapses.history i with heq | ⟨r, -, -, heq⟩ <;> rw [heq] <;> exact h.expiry i
  · obtain ⟨latest, htracks, hlog⟩ := h.tracked i
    refine ⟨latest, ?_, hlog⟩
    rcases helapses.history i with heq | ⟨r, hfrom, hto, heq⟩ <;> rw [heq]
    · exact htracks.mono (hmono helapses.readings)
    · exact (htracks.expire (hmono hfrom)).mono (hmono hto)
  · exact h.begun.imp helapses.releasing.trans helapses.readings.trans'

omit [DecidableEq ι] hmono in
theorem Spaced.late (h : Spaced clock expiries w log) {vp : ValidatedPeer} (hnew : ¬ w.contains clock i vp = true)
    {start : DialStart ι} (hstart : start ∈ log) (hsched : start.sched = i) (hnode : start.nodeId = vp.peer.nodeId) :
    start.time + expiries i ≤ clock w.readings := by
  obtain ⟨latest, htracks, hlog⟩ := h.tracked i
  obtain ⟨a, hlatest, hle⟩ := hlog start hstart hsched
  have hlate : ¬ clock w.readings < a + (w.schedulers i).dialHistory.expiry := fun hlt =>
    hnew ((htracks _ _ le_rfl).mpr ⟨a, hnode ▸ hlatest, hlt⟩)
  rw [h.expiry] at hlate
  omega

theorem Spaced.startDial (h : Spaced clock expiries w log) (hbegun : 1 ≤ w.readings) {vp : ValidatedPeer}
    (hnew : ¬ w.contains clock i vp = true) :
    Spaced clock expiries ((w.looked i vp).startDial clock i vp)
      (log ++ [⟨clock (w.looked i vp).readings, i, vp.peer.nodeId⟩]) := by
  have hnext : clock w.readings ≤ clock (w.looked i vp).readings := hmono (Nat.le_add_right _ _)
  refine ⟨fun j => ?_, fun j => ?_, ?_, .inr (Nat.succ_pos _), fun start hstart => ?_⟩
  · rw [schedulers_startDial]
    split_ifs <;> exact h.expiry j
  · obtain ⟨latest, htracks, hlog⟩ := h.tracked j
    rw [schedulers_startDial]
    by_cases hj : j = i
    · subst hj
      rw [if_pos rfl]
      refine ⟨_, (htracks.add hnext vp.peer.nodeId).mono (hmono (Nat.le_succ _)), fun start hstart hsched => ?_⟩
      by_cases hnode : start.nodeId = vp.peer.nodeId
      · rw [hnode, Function.update_self]
        refine ⟨_, rfl, ?_⟩
        rcases List.mem_append.mp hstart with hold | hlast
        · have hlate := h.late hnew hold hsched hnode
          omega
        · rw [List.mem_singleton.mp hlast]
      · rw [Function.update_of_ne hnode]
        rcases List.mem_append.mp hstart with hold | hlast
        · exact hlog start hold hsched
        · rw [List.mem_singleton.mp hlast] at hnode
          exact absurd rfl hnode
    · rw [if_neg hj]
      refine ⟨latest, htracks.mono (hnext.trans (hmono (Nat.le_succ _))), fun start hstart hsched => ?_⟩
      rcases List.mem_append.mp hstart with hold | hlast
      · exact hlog start hold hsched
      · rw [List.mem_singleton.mp hlast] at hsched
        exact absurd hsched.symm hj
  · refine List.pairwise_append.mpr ⟨h.apart, List.pairwise_singleton _ _, fun start hstart last hlast => ?_⟩
    rw [List.mem_singleton.mp hlast]
    intro hsched hnode
    rw [hsched]
    exact (h.late hnew hstart hsched hnode).trans hnext
  · rcases List.mem_append.mp hstart with hold | hlast
    · exact h.times start hold
    · rw [List.mem_singleton.mp hlast]
      exact (hmono hbegun).trans hnext

/-! ## Every call -/

theorem Spaced.drainFrom (queue : List ValidatedPeer) (h : Spaced clock expiries w log) (hbegun : 1 ≤ w.readings) :
    Spaced clock expiries (drainFrom clock i queue w).1 (log ++ startsAt clock (drainFrom clock i queue w)) := by
  induction queue generalizing w with
  | nil => simpa [World.drainFrom, startsAt] using h
  | cons vp queue ih =>
      rw [World.drainFrom]
      split_ifs with hroom
      · have hset := h.elapses hmono (elapses_setQueue w i queue)
        dsimp only
        split_ifs with hcontains
        · exact ih (hset.elapses hmono (elapses_looked _ i vp)) (hbegun.trans (Nat.le_add_right _ _))
        · have hstart := hset.startDial hmono hbegun hcontains
          exact { hstart with begun := .inr (Nat.succ_pos _) }
      · simpa [startsAt] using h

theorem Spaced.enqueue (h : Spaced clock expiries w log) (i : ι) (vp : ValidatedPeer) :
    Spaced clock expiries (w.enqueue clock i vp).1 (log ++ startsAt clock (w.enqueue clock i vp)) := by
  have hexpire := h.elapses hmono (elapses_expire w i)
  have hlooked := hexpire.elapses hmono (elapses_looked _ i vp)
  unfold World.enqueue
  dsimp only
  split_ifs with hstop hfilter hcontains hroom
  · simpa [startsAt] using h
  · simpa [startsAt] using h
  · simpa [startsAt] using hlooked
  · exact hexpire.startDial hmono (Nat.succ_pos _) hcontains
  · simpa [startsAt] using hlooked.elapses hmono (elapses_setQueue _ i _)

theorem Spaced.onDone (h : Spaced clock expiries w log) (k : Nat) :
    Spaced clock expiries (w.onDone clock k).1 (log ++ startsAt clock (w.onDone clock k)) := by
  cases hdial : w.dials[k]? with
  | none =>
      rw [World.onDone, hdial]
      simpa [startsAt] using h
  | some dial =>
      have hdone : Spaced clock expiries (w.afterDone k dial) log :=
        h.elapses hmono (elapses_of_history (readings_afterDone w k dial) (releasing_afterDone w k dial)
          fun j => dialHistory_afterDone w j k dial)
      rw [onDone_eq clock w hdial]
      split_ifs
      · simpa [startsAt] using hdone
      · exact (hdone.elapses hmono (elapses_expire _ dial.sched)).drainFrom hmono _ (Nat.succ_pos _)

theorem Spaced.step (h : Spaced clock expiries w log) (action : DialAction ι σ) :
    Spaced clock expiries (w.step clock action).1 (log ++ startsAt clock (w.step clock action)) := by
  cases action with
  | enqueue sched vp => exact h.enqueue hmono sched vp
  | stop sched alive =>
      have hnone : startsAt clock (w.stop sched alive) = [] := by simp [startsAt, World.stop]
      show Spaced clock expiries (w.stop sched alive).1 (log ++ startsAt clock (w.stop sched alive))
      rw [hnone, List.append_nil]
      exact h.elapses hmono (elapses_stop w sched alive)
  | onConnected k session =>
      show Spaced clock expiries (w.onConnected k session) (log ++ [])
      rw [List.append_nil]
      unfold World.onConnected
      cases w.dials[k]? with
      | none => exact h
      | some dial =>
          dsimp only
          split_ifs
          · exact h
          · exact h.elapses hmono (elapses_dialConnected w k dial session)
  | onDone k => exact h.onDone hmono k
  | spawnReturns =>
      show Spaced clock expiries (w.spawnReturns clock).1 (log ++ startsAt clock (w.spawnReturns clock))
      unfold World.spawnReturns
      cases hreleasing : w.releasing with
      | nil => simpa [startsAt] using h
      | cons i releasing =>
          have hbegun : 1 ≤ w.readings := h.begun.resolve_left (by simp [hreleasing])
          have hpop : Spaced clock expiries { w with releasing } log := { h with begun := .inr hbegun }
          exact hpop.drainFrom hmono _ hbegun

end Clock

end Spaced

omit [DecidableEq ι] in
theorem spaced_init (clock : Nat → Nat) (maxTotal maxPerChain : Int) (filters : ι → Option FilterFn)
    (expiries : ι → Nat) :
    Spaced clock expiries (initWithExpiry maxTotal maxPerChain filters expiries : World ι σ) [] :=
  ⟨fun _ => rfl, fun i => ⟨fun _ => none, tracks_new (expiries i) _, by simp⟩, List.Pairwise.nil, .inl rfl, by simp⟩

theorem spaced_run {clock : Nat → Nat} (hmono : Monotone clock) (maxTotal maxPerChain : Int)
    (filters : ι → Option FilterFn) (expiries : ι → Nat) (actions : List (DialAction ι σ)) :
    Spaced clock expiries
      (runEffects (timedStep clock) (initWithExpiry maxTotal maxPerChain filters expiries) actions).1
      (dialStarts clock maxTotal maxPerChain filters expiries actions) := by
  have hrun : Spaced clock expiries _
      ([] ++ (runEffects (timedStep clock) (initWithExpiry maxTotal maxPerChain filters expiries) actions).2) :=
    runEffects_invariant (I := Spaced clock expiries) (fun action _ _ _ h => h.step hmono action)
      (spaced_init clock maxTotal maxPerChain filters expiries)
  rwa [List.nil_append] at hrun

/-- **The cooldown of the dials.** Under a clock that does not go back, any two dials of one scheduler to one node are
at least the period of its history apart, after any calls of the schedulers and of the callbacks of their dials. The
history finds a node exactly in the period behind the latest call of `add` for it, after any calls of `add` and
`expire`. -/
theorem dial_cooldown (clock : Nat → Nat) (hmono : Monotone clock) (maxTotal maxPerChain : Int)
    (filters : ι → Option FilterFn)
    (expiries : ι → Nat) (actions : List (DialAction ι σ)) :
    (dialStarts clock maxTotal maxPerChain filters expiries actions).Pairwise (Apart expiries) ∧
      ∀ (expiry now : Nat) (calls : List HistoryCall) (nodeId : NodeId),
        (calls.map HistoryCall.time ++ [now]).Pairwise (· ≤ ·) →
          ((calls.foldl DialHistory.apply { expiry }).contains now nodeId = true ↔
            ∃ a, latestAdd calls nodeId = some a ∧ now < a + expiry) := by
  constructor
  · exact (spaced_run hmono maxTotal maxPerChain filters expiries actions).apart
  · intro expiry now calls nodeId htimes
    have htracks := tracks_calls expiry htimes nodeId now le_rfl
    rwa [expiry_calls] at htracks

/-- A period of three: the node is dialed again as soon as the history does not find it. -/
theorem dial_cooldown_two_starts :
    let actions : List (DialAction Unit Unit) := [.enqueue () (makePeer 1), .onDone 0, .enqueue () (makePeer 1)]
    dialStarts id 1 1 (fun _ => none) (fun _ => 3) actions =
        [⟨1, (), (makePeer 1).peer.nodeId⟩, ⟨5, (), (makePeer 1).peer.nodeId⟩] ∧
      (dialStarts id 1 1 (fun _ => none) (fun _ => 3) actions).Pairwise (Apart fun _ => 3) :=
  ⟨by decide +kernel, (dial_cooldown id monotone_id 1 1 (fun _ => none) (fun _ => 3) _).1⟩

end World

end DevP2P.Discv4
