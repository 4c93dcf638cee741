import DevP2P.Discv4.Client
import DevP2P.Lib.Runs
import DevP2P.Rlpx.Crypto
import Mathlib.Data.List.AList

/-!
# The dial schedulers of a pool (`discv4/dial_scheduler.hpp`, `discv4/dial_history.hpp`)

The schedulers share a pool and run on one thread. The two callbacks of a dial share a flag, and may be called
before `spawn_dial` returns: the loop of `release` is cut there, and any call may come between.

* `DialHistory` : the nodes that were dialed; the times come from a clock, whose readings are numbered;
* `WatcherPool`, `DialScheduler`, `World` : the state; `Dial` : a dial in flight;
* `enqueue`, `release`, `onDone`, `onConnected`, `stop` : the operations; `drain` : the loop of `release` up to the next
  dial;
* `DialAction`, `step`, `run` : sequences of calls;
* `Skips` : what happens before a dial; `enqueue_cases`, `drain_cases` : all that a new peer and the loop of `release`
  can do.
-/

namespace DevP2P.Discv4
open DevP2P.Lib

/-! ## The history -/

/-- The period in nanoseconds, as the steady clock counts. -/
def kDefaultDialHistoryExpiry : Nat := 35 * 1000000000

structure DialHistory where
  expiry : Nat := kDefaultDialHistoryExpiry
  /-- The time up to which a node is not dialed again. -/
  entries : AList fun _ : NodeId => Nat := ∅

namespace DialHistory

variable (h : DialHistory) (now : Nat)

def add (nodeId : NodeId) : DialHistory := { h with entries := h.entries.insert nodeId (now + h.expiry) }

def contains (nodeId : NodeId) : Bool :=
  match h.entries.lookup nodeId with
  | none => false
  | some time => now < time

def expire : DialHistory :=
  { h with entries := ⟨h.entries.entries.filter fun e => ¬ now ≥ e.2, h.entries.nodupKeys.sublist List.filter_sublist⟩ }

end DialHistory

/-! ## State -/

structure ValidatedPeer where
  peer : Candidate
  pubkey : Rlpx.PublicKey
deriving DecidableEq

/-- `FilterFn`: whether a peer may be dialed. -/
abbrev FilterFn := Candidate → Bool

def makeForkIdFilter (expectedHash : FixedBytes 4) : FilterFn := fun peer =>
  match peer.ethForkId with
  | none => false
  | some forkId => forkId.hash = expectedHash

/-- The caps and the counter are of type `int`. The counter stays between zero and the cap, so it does not overflow. -/
structure WatcherPool where
  maxTotal : Int
  maxPerChain : Int
  activeTotal : Int := 0
deriving DecidableEq

/-- A scheduler; a session is any value. -/
structure DialScheduler (σ : Type) where
  filterFn : Option FilterFn := none
  dialHistory : DialHistory := {}
  active : Int := 0
  validatedCount : Int := 0
  totalValidated : Int := 0
  stopping : Bool := false
  queue : List ValidatedPeer := []
  activeSessions : List σ := []

/-- A dial in flight: what its coroutine and its callbacks have captured. -/
structure Dial (ι : Type) where
  sched : ι
  vp : ValidatedPeer
  wasValidated : Bool
deriving DecidableEq

structure World (ι σ : Type) where
  pool : WatcherPool
  schedulers : ι → DialScheduler σ
  /-- The dials that were started and have not called `on_done`. -/
  dials : List (Dial ι)
  /-- The loops of `release` that wait for `spawn_dial`, the innermost first. -/
  releasing : List ι
  /-- How often the clock was read. -/
  readings : Nat

inductive DialEffect (ι σ : Type)
  /-- `spawn_dial(vp)`. -/
  | dial (sched : ι) (vp : ValidatedPeer)
  /-- `disconnect` of a session. -/
  | disconnect (session : σ)
deriving DecidableEq

/-! ## Operations -/

namespace World

variable {ι σ : Type} [DecidableEq ι]

def modify (w : World ι σ) (i : ι) (f : DialScheduler σ → DialScheduler σ) : World ι σ :=
  { w with schedulers := fun j => if j = i then f (w.schedulers j) else w.schedulers j }

def tick (w : World ι σ) : World ι σ := { w with readings := w.readings + 1 }

/-- `dial_history->expire()`. -/
def expire (clock : Nat → Nat) (w : World ι σ) (i : ι) : World ι σ :=
  (w.modify i fun s => { s with dialHistory := s.dialHistory.expire (clock w.readings) }).tick

/-- `dial_history->contains(vp.peer.node_id)`. -/
def contains (clock : Nat → Nat) (w : World ι σ) (i : ι) (vp : ValidatedPeer) : Bool :=
  (w.schedulers i).dialHistory.contains (clock w.readings) vp.peer.nodeId

/-- `contains` has read the clock, if the node is in the history. -/
def looked (w : World ι σ) (i : ι) (vp : ValidatedPeer) : World ι σ :=
  { w with
    readings := w.readings + if ((w.schedulers i).dialHistory.entries.lookup vp.peer.nodeId).isSome then 1 else 0 }

/-- Both caps have room for a dial of scheduler `i`. -/
def HasRoom (w : World ι σ) (i : ι) : Prop :=
  (w.schedulers i).active < w.pool.maxPerChain ∧ w.pool.activeTotal < w.pool.maxTotal

instance (w : World ι σ) (i : ι) : Decidable (w.HasRoom i) := inferInstanceAs (Decidable (_ ∧ _))

def setQueue (w : World ι σ) (i : ι) (queue : List ValidatedPeer) : World ι σ := w.modify i fun s => { s with queue }

def spawnDial (w : World ι σ) (i : ι) (vp : ValidatedPeer) : World ι σ :=
  { w with dials := w.dials ++ [⟨i, vp, false⟩] }

/-- The statements that start a dial, up to `spawn_dial`. -/
def startDial (clock : Nat → Nat) (w : World ι σ) (i : ι) (vp : ValidatedPeer) : World ι σ :=
  let w := w.modify i fun s =>
    { s with active := s.active + 1, dialHistory := s.dialHistory.add (clock w.readings) vp.peer.nodeId }
  let w := { w with pool := { w.pool with activeTotal := w.pool.activeTotal + 1 } }
  w.tick.spawnDial i vp

def enqueue (clock : Nat → Nat) (w : World ι σ) (i : ι) (vp : ValidatedPeer) : World ι σ × List (DialEffect ι σ) :=
  if (w.schedulers i).stopping then (w, [])
  else if (w.schedulers i).filterFn.any fun filterFn => !filterFn vp.peer then (w, [])
  else
    let w := w.expire clock i
    if w.contains clock i vp then (w.looked i vp, [])
    else
      let w := w.looked i vp
      if w.HasRoom i then (w.startDial clock i vp, [.dial i vp])
      else (w.setQueue i ((w.schedulers i).queue ++ [vp]), [])

/-- The loop of `release`, on the queue: up to its end, or up to a dial, where it waits. -/
def drainFrom (clock : Nat → Nat) (i : ι) : List ValidatedPeer → World ι σ → World ι σ × List (DialEffect ι σ)
  | [], w => (w, [])
  | vp :: queue, w =>
    if w.HasRoom i then
      let w := w.setQueue i queue
      if w.contains clock i vp then drainFrom clock i queue (w.looked i vp)
      else ({ (w.looked i vp).startDial clock i vp with releasing := i :: w.releasing }, [.dial i vp])
    else (w, [])

def drain (clock : Nat → Nat) (w : World ι σ) (i : ι) : World ι σ × List (DialEffect ι σ) :=
  drainFrom clock i (w.schedulers i).queue w

def giveBack (w : World ι σ) (i : ι) : World ι σ :=
  let w := w.modify i fun s => { s with active := s.active - 1 }
  { w with pool := { w.pool with activeTotal := w.pool.activeTotal - 1 } }

def release (clock : Nat → Nat) (w : World ι σ) (i : ι) : World ι σ × List (DialEffect ι σ) :=
  let w := w.giveBack i
  if (w.schedulers i).stopping then (w, []) else (w.expire clock i).drain clock i

/-- The callback `on_done` of a dial that is not in flight any more. -/
def dialDone (w : World ι σ) (k : Nat) (dial : Dial ι) : World ι σ :=
  let w := { w with dials := w.dials.eraseIdx k }
  if dial.wasValidated then w.modify dial.sched fun s => { s with validatedCount := s.validatedCount - 1 } else w

/-- `on_done` of the dial `k`. -/
def onDone (clock : Nat → Nat) (w : World ι σ) (k : Nat) : World ι σ × List (DialEffect ι σ) :=
  match w.dials[k]? with
  | none => (w, [])
  | some dial => (w.dialDone k dial).release clock dial.sched

/-- The callback `on_connected`. -/
def dialConnected (w : World ι σ) (k : Nat) (dial : Dial ι) (session : σ) : World ι σ :=
  let w := { w with dials := w.dials.set k { dial with wasValidated := true } }
  w.modify dial.sched fun s =>
    { s with
      validatedCount := s.validatedCount + 1
      totalValidated := s.totalValidated + 1
      activeSessions := s.activeSessions ++ [session] }

/-- `on_connected` of the dial `k`, which is called at most once. -/
def onConnected (w : World ι σ) (k : Nat) (session : σ) : World ι σ :=
  match w.dials[k]? with
  | none => w
  | some dial => if dial.wasValidated then w else w.dialConnected k dial session

/-- The sessions in `alive` still exist. -/
def stop (w : World ι σ) (i : ι) (alive : σ → Bool) : World ι σ × List (DialEffect ι σ) :=
  (w.modify i fun s => { s with stopping := true, queue := [], activeSessions := [] },
    ((w.schedulers i).activeSessions.filter alive).map .disconnect)

/-- The innermost call of `spawn_dial` in a loop of `release` returns. -/
def spawnReturns (clock : Nat → Nat) (w : World ι σ) : World ι σ × List (DialEffect ι σ) :=
  match w.releasing with
  | [] => (w, [])
  | i :: releasing => drain clock { w with releasing } i

end World

/-! ## Sequences of calls -/

/-- A call of a scheduler or of a callback; a dial is named by its place among those in flight. -/
inductive DialAction (ι σ : Type)
  | enqueue (sched : ι) (vp : ValidatedPeer)
  | stop (sched : ι) (alive : σ → Bool)
  | onConnected (k : Nat) (session : σ)
  | onDone (k : Nat)
  | spawnReturns

def DialAction.isStop {ι σ : Type} : DialAction ι σ → Bool
  | .stop _ _ => true
  | _ => false

namespace World

variable {ι σ : Type} [DecidableEq ι]

def step (clock : Nat → Nat) (w : World ι σ) : DialAction ι σ → World ι σ × List (DialEffect ι σ)
  | .enqueue sched vp => w.enqueue clock sched vp
  | .stop sched alive => w.stop sched alive
  | .onConnected k session => (w.onConnected k session, [])
  | .onDone k => w.onDone clock k
  | .spawnReturns => w.spawnReturns clock

/-- New schedulers with the filters `filters`. -/
def init (maxTotal maxPerChain : Int) (filters : ι → Option FilterFn) : World ι σ where
  pool := { maxTotal, maxPerChain }
  schedulers := fun i => { filterFn := filters i }
  dials := []
  releasing := []
  readings := 0

/-- New schedulers after the calls `actions`, and all their effects. -/
def run (clock : Nat → Nat) (maxTotal maxPerChain : Int) (filters : ι → Option FilterFn)
    (actions : List (DialAction ι σ)) :
    World ι σ × List (DialEffect ι σ) :=
  runEffects (step clock) (init maxTotal maxPerChain filters) actions

theorem run_concat (clock : Nat → Nat) (maxTotal maxPerChain : Int) (filters : ι → Option FilterFn)
    (actions : List (DialAction ι σ)) (action : DialAction ι σ) :
    (run clock maxTotal maxPerChain filters (actions ++ [action])).1 =
      (step clock (run clock maxTotal maxPerChain filters actions).1 action).1 := by
  rw [run, runEffects_append, runEffects_singleton]
  rfl

/-- The dials of scheduler `i` in flight. -/
def inFlight (w : World ι σ) (i : ι) : Nat := w.dials.countP fun d => d.sched = i

/-- Those that have called `on_connected`. -/
def validatedInFlight (w : World ι σ) (i : ι) : Nat := w.dials.countP fun d => d.sched = i ∧ d.wasValidated

/-! ## What the operations do -/

section Updates

variable (clock : Nat → Nat) (w : World ι σ) (i j : ι) (k : Nat) (dial : Dial ι)

theorem schedulers_setQueue (queue : List ValidatedPeer) :
    (w.setQueue i queue).schedulers j = if j = i then { w.schedulers j with queue } else w.schedulers j := rfl

theorem schedulers_expire : (w.expire clock i).schedulers j =
    if j = i then { w.schedulers j with dialHistory := (w.schedulers j).dialHistory.expire (clock w.readings) }
    else w.schedulers j := rfl

theorem schedulers_startDial (vp : ValidatedPeer) : (w.startDial clock i vp).schedulers j =
    if j = i then
      { w.schedulers j with
        active := (w.schedulers j).active + 1
        dialHistory := (w.schedulers j).dialHistory.add (clock w.readings) vp.peer.nodeId }
    else w.schedulers j := rfl

theorem schedulers_giveBack : (w.giveBack i).schedulers j =
    if j = i then { w.schedulers j with active := (w.schedulers j).active - 1 } else w.schedulers j := rfl

theorem schedulers_dialDone : (w.dialDone k dial).schedulers j =
    if j = dial.sched ∧ dial.wasValidated then
      { w.schedulers j with validatedCount := (w.schedulers j).validatedCount - 1 }
    else w.schedulers j := by
  unfold dialDone
  cases dial.wasValidated with
  | false => simp
  | true => simp [modify]

theorem schedulers_dialConnected (session : σ) : (w.dialConnected k dial session).schedulers j =
    if j = dial.sched then
      { w.schedulers j with
        validatedCount := (w.schedulers j).validatedCount + 1
        totalValidated := (w.schedulers j).totalValidated + 1
        activeSessions := (w.schedulers j).activeSessions ++ [session] }
    else w.schedulers j := rfl

theorem schedulers_stop (alive : σ → Bool) : (w.stop i alive).1.schedulers j =
    if j = i then { w.schedulers j with stopping := true, queue := [], activeSessions := [] } else w.schedulers j := rfl

end Updates

/-- The worlds agree on the pool, the dials in flight and the counters. -/
structure SameSlots (w w' : World ι σ) : Prop where
  pool : w'.pool = w.pool
  dials : w'.dials = w.dials
  active : ∀ j, (w'.schedulers j).active = (w.schedulers j).active
  validatedCount : ∀ j, (w'.schedulers j).validatedCount = (w.schedulers j).validatedCount

/-- Time has passed, and peers may have been dropped from the front of a queue. -/
structure Skips (w w' : World ι σ) : Prop extends SameSlots w w' where
  releasing : w'.releasing = w.releasing
  stopping : ∀ j, (w'.schedulers j).stopping = (w.schedulers j).stopping
  queue : ∀ j, (w'.schedulers j).queue <:+ (w.schedulers j).queue

section Skips

variable {w w' w'' : World ι σ} {i j : ι}

omit [DecidableEq ι] in
theorem SameSlots.hasRoom_iff (h : SameSlots w w') : w'.HasRoom j ↔ w.HasRoom j := by
  unfold HasRoom
  rw [h.pool, h.active]

omit [DecidableEq ι] in
theorem Skips.refl (w : World ι σ) : Skips w w where
  pool := rfl
  dials := rfl
  active := fun _ => rfl
  validatedCount := fun _ => rfl
  releasing := rfl
  stopping := fun _ => rfl
  queue := fun _ => List.suffix_refl _

omit [DecidableEq ι] in
theorem Skips.trans (h : Skips w w') (h' : Skips w' w'') : Skips w w'' where
  pool := h'.pool.trans h.pool
  dials := h'.dials.trans h.dials
  active := fun j => (h'.active j).trans (h.active j)
  validatedCount := fun j => (h'.validatedCount j).trans (h.validatedCount j)
  releasing := h'.releasing.trans h.releasing
  stopping := fun j => (h'.stopping j).trans (h.stopping j)
  queue := fun j => (h'.queue j).trans (h.queue j)

omit [DecidableEq ι] in
theorem Skips.queue_eq_nil (h : Skips w w') (hq : (w.schedulers j).queue = []) : (w'.schedulers j).queue = [] :=
  List.suffix_nil.mp (hq ▸ h.queue j)

omit [DecidableEq ι] in
theorem skips_looked (w : World ι σ) (i : ι) (vp : ValidatedPeer) : Skips w (w.looked i vp) := { Skips.refl w with }

omit [DecidableEq ι] in
theorem sameSlots_releasing (w : World ι σ) (releasing : List ι) : SameSlots w { w with releasing } :=
  ⟨rfl, rfl, fun _ => rfl, fun _ => rfl⟩

theorem sameSlots_setQueue (w : World ι σ) (i : ι) (queue : List ValidatedPeer) : SameSlots w (w.setQueue i queue) := by
  refine ⟨rfl, rfl, fun j => ?_, fun j => ?_⟩ <;> rw [schedulers_setQueue] <;> split_ifs <;> rfl

theorem sameSlots_stop (w : World ι σ) (i : ι) (alive : σ → Bool) : SameSlots w (w.stop i alive).1 := by
  refine ⟨rfl, rfl, fun j => ?_, fun j => ?_⟩ <;> rw [schedulers_stop] <;> split_ifs <;> rfl

theorem skips_setQueue {queue : List ValidatedPeer} (h : queue <:+ (w.schedulers i).queue) :
    Skips w (w.setQueue i queue) := by
  refine ⟨sameSlots_setQueue w i queue, rfl, fun j => ?_, fun j => ?_⟩ <;>
    rw [schedulers_setQueue] <;> split_ifs with hj
  · rfl
  · rfl
  · rw [hj]
    exact h
  · exact List.suffix_refl _

theorem skips_expire (clock : Nat → Nat) (w : World ι σ) (i : ι) : Skips w (w.expire clock i) := by
  have hqueue : ∀ j, ((w.expire clock i).schedulers j).queue = (w.schedulers j).queue := by
    intro j
    rw [schedulers_expire]
    split_ifs <;> rfl
  refine ⟨⟨rfl, rfl, fun j => ?_, fun j => ?_⟩, rfl, fun j => ?_, fun j => hqueue j ▸ List.suffix_refl _⟩ <;>
    rw [schedulers_expire] <;> split_ifs <;> rfl

end Skips

variable (clock : Nat → Nat) (w : World ι σ) (i : ι)

theorem enqueue_cases (vp : ValidatedPeer) : ∃ w', Skips w w' ∧
    (w.enqueue clock i vp = (w', []) ∨
      (w.schedulers i).stopping = false ∧ w'.HasRoom i ∧
      w.enqueue clock i vp = (w'.startDial clock i vp, [.dial i vp]) ∨
      (w.schedulers i).stopping = false ∧ ¬ w'.HasRoom i ∧
        w.enqueue clock i vp = (w'.setQueue i ((w'.schedulers i).queue ++ [vp]), [])) := by
  have hskips := (skips_expire clock w i).trans (skips_looked _ i vp)
  unfold enqueue
  dsimp only
  split_ifs with hstop hfilter hcontains hroom
  · exact ⟨w, .refl w, .inl rfl⟩
  · exact ⟨w, .refl w, .inl rfl⟩
  · exact ⟨_, hskips, .inl rfl⟩
  · exact ⟨_, hskips, .inr (.inl ⟨by simpa using hstop, hroom, rfl⟩)⟩
  · exact ⟨_, hskips, .inr (.inr ⟨by simpa using hstop, hroom, rfl⟩)⟩

theorem drainFrom_cases (queue : List ValidatedPeer) (w : World ι σ) (hqueue : (w.schedulers i).queue = queue) :
    ∃ w', Skips w w' ∧
      (((w'.schedulers i).queue = [] ∨ ¬ w'.HasRoom i) ∧ drainFrom clock i queue w = (w', []) ∨
        ∃ vp ∈ queue, w'.HasRoom i ∧
          drainFrom clock i queue w = ({ w'.startDial clock i vp with releasing := i :: w'.releasing },
            [.dial i vp])) := by
  induction queue generalizing w with
  | nil => exact ⟨w, .refl w, .inl ⟨.inl hqueue, rfl⟩⟩
  | cons vp queue ih =>
      rw [drainFrom]
      split_ifs with hroom
      · have hskips : Skips w ((w.setQueue i queue).looked i vp) :=
          (skips_setQueue (hqueue ▸ List.suffix_cons vp queue)).trans (skips_looked _ i vp)
        dsimp only
        split_ifs with hcontains
        · have hrest : (((w.setQueue i queue).looked i vp).schedulers i).queue = queue := by
            show ((w.setQueue i queue).schedulers i).queue = queue
            rw [schedulers_setQueue, if_pos rfl]
          obtain ⟨w', hw', hend | ⟨vp', hmem, hroom', heq⟩⟩ := ih ((w.setQueue i queue).looked i vp) hrest
          · exact ⟨w', hskips.trans hw', .inl hend⟩
          · exact ⟨w', hskips.trans hw', .inr ⟨vp', List.mem_cons_of_mem vp hmem, hroom', heq⟩⟩
        · exact ⟨_, hskips, .inr ⟨vp, List.mem_cons_self, hskips.hasRoom_iff.mpr hroom, rfl⟩⟩
      · exact ⟨w, .refl w, .inl ⟨.inr hroom, rfl⟩⟩

/-- The loop of `release` ends because the queue is empty or there is no room, or it waits for a dial. -/
theorem drain_cases : ∃ w', Skips w w' ∧
    (((w'.schedulers i).queue = [] ∨ ¬ w'.HasRoom i) ∧ w.drain clock i = (w', []) ∨
      ∃ vp ∈ (w.schedulers i).queue, w'.HasRoom i ∧
        w.drain clock i = ({ w'.startDial clock i vp with releasing := i :: w'.releasing }, [.dial i vp])) :=
  drainFrom_cases clock i (w.schedulers i).queue w rfl

/-- A dial is over and its slot is free, before the queue is drained. -/
def afterDone (w : World ι σ) (k : Nat) (dial : Dial ι) : World ι σ := (w.dialDone k dial).giveBack dial.sched

/-- Nobody was stopped and no queue was touched. -/
structure SameQueues (w w' : World ι σ) : Prop where
  stopping : ∀ j, (w'.schedulers j).stopping = (w.schedulers j).stopping
  queue : ∀ j, (w'.schedulers j).queue = (w.schedulers j).queue

theorem sameQueues_startDial (vp : ValidatedPeer) : SameQueues w (w.startDial clock i vp) := by
  refine ⟨fun j => ?_, fun j => ?_⟩ <;> rw [schedulers_startDial] <;> split_ifs <;> rfl

theorem sameQueues_afterDone (k : Nat) (dial : Dial ι) : SameQueues w (w.afterDone k dial) := by
  refine ⟨fun j => ?_, fun j => ?_⟩ <;> rw [afterDone, schedulers_giveBack, schedulers_dialDone] <;> split_ifs <;> rfl

theorem sameQueues_dialConnected (k : Nat) (dial : Dial ι) (session : σ) :
    SameQueues w (w.dialConnected k dial session) := by
  refine ⟨fun j => ?_, fun j => ?_⟩ <;> rw [schedulers_dialConnected] <;> split_ifs <;> rfl

theorem onDone_eq {k : Nat} {dial : Dial ι} (h : w.dials[k]? = some dial) :
    w.onDone clock k =
      if ((w.afterDone k dial).schedulers dial.sched).stopping then (w.afterDone k dial, [])
      else ((w.afterDone k dial).expire clock dial.sched).drain clock dial.sched := by
  rw [onDone, h]
  rfl

end World

end DevP2P.Discv4
