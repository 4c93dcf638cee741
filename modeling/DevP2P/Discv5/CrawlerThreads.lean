import DevP2P.Discv5.Crawler
import DevP2P.Lib.Tally
import Mathlib.Data.List.Nodup
import Mathlib.Logic.Relation

/-!
# The crawler under several threads (`discv5/discv5_crawler.cpp`)

Each call takes `state_mutex_` for a part of its work. `ingest_discovered_peers` takes it once for a peer to queue it
and once more, in `emit_peer`, to record it; the filter, the counters and the callback are outside.

* `IngestPoint`, `IngestPoint.run` : where a call of `ingest_discovered_peers` stands, and what it does next;
* `SharedCrawler`, `SharedCrawler.step` : the threads with the calls they make, any of which goes on by one section;
* `SectionStep` : what a section does to the queue, the discovered nodes and the callback;
* `Consistent` : the invariant of all runs; `crawler_consistent` : what follows for the callers;
* `run_ingest_alone` : without other threads the sections are the whole call.
-/

namespace DevP2P.Discv5
open DevP2P.Lib

/-! ## Sections -/

inductive ThreadCall
  | processFoundPeers (peers : List ValidatedPeer)
  | ingestDiscoveredPeers (peers : List ValidatedPeer)
  | dequeueNext
  | markMeasured (nodeId : NodeId)
  | markFailed (nodeId : NodeId)

/-- Where a call of `ingest_discovered_peers` stands; `rest` are the peers that come after the present one. -/
inductive IngestPoint
  /-- At the head of the loop. -/
  | look (peers : List ValidatedPeer)
  /-- Before `++stat_duplicates_`, the node being discovered. -/
  | countDuplicate (rest : List ValidatedPeer)
  /-- At the beginning of `emit_peer`. -/
  | emit (peer : ValidatedPeer) (rest : List ValidatedPeer)
  /-- Behind the fork-id filter. -/
  | record (peer : ValidatedPeer) (rest : List ValidatedPeer)
  /-- Before `++stat_discovered_`. -/
  | countDiscovered (peer : ValidatedPeer) (rest : List ValidatedPeer)
  /-- Before `peer_callback_(peer)`. -/
  | callBack (peer : ValidatedPeer) (rest : List ValidatedPeer)

/-- What a call does from the point on without being interrupted, and the point it gets to; `none` if it returns. -/
def IngestPoint.run (c : Crawler) : IngestPoint → Crawler × Option IngestPoint
  | .look [] => (c, none)
  | .look (peer :: rest) =>
    (c.queueNew peer, some (if peer.nodeId ∈ c.discoveredIds then .countDuplicate rest else .emit peer rest))
  | .countDuplicate rest => ({ c with statDuplicates := c.statDuplicates + 1 }, some (.look rest))
  | .emit peer rest => match c.requiredForkId with
    | none => (c, some (.record peer rest))
    | some required => match peer.ethForkId with
      | none => ({ c with statNoEthEntry := c.statNoEthEntry + 1 }, some (.look rest))
      | some actual =>
        if required ≠ actual then ({ c with statWrongChain := c.statWrongChain + 1 }, some (.look rest))
        else (c, some (.record peer rest))
  | .record peer rest =>
    if peer.nodeId ∈ c.discoveredIds then ({ c with statDuplicates := c.statDuplicates + 1 }, some (.look rest))
    else ({ c with discoveredIds := insert peer.nodeId c.discoveredIds }, some (.countDiscovered peer rest))
  | .countDiscovered peer rest => ({ c with statDiscovered := c.statDiscovered + 1 }, some (.callBack peer rest))
  | .callBack peer rest => ({ c with emitted := c.emitted ++ [peer] }, some (.look rest))

/-- The first section of a call. All but `ingest_discovered_peers` are one. -/
def Crawler.enter (c : Crawler) : ThreadCall → Crawler × Option IngestPoint
  | .processFoundPeers peers => (c.processFoundPeers peers, none)
  | .ingestDiscoveredPeers peers => (c, some (.look peers))
  | .dequeueNext => (c.dequeueNext.2, none)
  | .markMeasured nodeId => (c.markMeasured nodeId, none)
  | .markFailed nodeId => (c.markFailed nodeId, none)

/-- The calls that a thread has still to make, and where it stands in the present one. -/
structure CrawlerThread where
  calls : List ThreadCall
  inside : Option IngestPoint

def CrawlerThread.advance (c : Crawler) : CrawlerThread → Crawler × CrawlerThread
  | ⟨calls, some point⟩ => ((point.run c).1, ⟨calls, (point.run c).2⟩)
  | ⟨call :: calls, none⟩ => ((c.enter call).1, ⟨calls, (c.enter call).2⟩)
  | ⟨[], none⟩ => (c, ⟨[], none⟩)

structure SharedCrawler where
  crawler : Crawler
  threads : List CrawlerThread

namespace SharedCrawler

def step (s : SharedCrawler) (k : Nat) : SharedCrawler :=
  match s.threads[k]? with
  | none => s
  | some thread => ⟨(thread.advance s.crawler).1, s.threads.set k (thread.advance s.crawler).2⟩

def run (s : SharedCrawler) (schedule : List Nat) : SharedCrawler := schedule.foldl step s

def new (requiredForkId : Option ForkId) (programs : List (List ThreadCall)) : SharedCrawler :=
  ⟨.new requiredForkId, programs.map fun calls => ⟨calls, none⟩⟩

/-- Every call that was made has returned. -/
def Idle (s : SharedCrawler) : Prop := ∀ thread ∈ s.threads, thread.inside = none

end SharedCrawler

/-! ## The filter -/

/-- The fork-id filter of `emit_peer`. -/
def PassesFilter (requiredForkId : Option ForkId) (peer : ValidatedPeer) : Prop :=
  ∀ required, requiredForkId = some required → peer.ethForkId = some required

section Filter

variable {c : Crawler} {peer : ValidatedPeer} {rest : List ValidatedPeer}

theorem emitPeer_of_passes (h : PassesFilter c.requiredForkId peer) : c.emitPeer peer = c.emitOnce peer := by
  unfold Crawler.emitPeer
  cases hfork : c.requiredForkId with
  | none => rfl
  | some required =>
      rw [h required hfork]
      exact if_neg (not_not.mpr rfl)

theorem run_emit_of_passes (h : PassesFilter c.requiredForkId peer) :
    IngestPoint.run c (.emit peer rest) = (c, some (.record peer rest)) := by
  cases hfork : c.requiredForkId with
  | none => simp only [IngestPoint.run, hfork]
  | some required => simp only [IngestPoint.run, hfork, h required hfork, ne_eq, not_true_eq_false, if_false]

theorem run_emit_of_not_passes (h : ¬ PassesFilter c.requiredForkId peer) :
    IngestPoint.run c (.emit peer rest) = (c.emitPeer peer, some (.look rest)) := by
  cases hfork : c.requiredForkId with
  | none => exact absurd (fun required hsome => by rw [hfork] at hsome; cases hsome) h
  | some required =>
      cases hactual : peer.ethForkId with
      | none => simp only [IngestPoint.run, Crawler.emitPeer, hfork, hactual]
      | some actual =>
          have hne : required ≠ actual := by
            rintro rfl
            refine h fun required' hsome => ?_
            rw [hfork] at hsome
            rw [hactual, hsome]
          simp only [IngestPoint.run, Crawler.emitPeer, hfork, hactual, if_pos hne]

theorem emitPeer_of_not_passes (h : ¬ PassesFilter c.requiredForkId peer) : ∃ wrongChain noEthEntry,
    c.emitPeer peer = { c with statWrongChain := wrongChain, statNoEthEntry := noEthEntry } := by
  unfold Crawler.emitPeer
  split
  · rename_i hfork
    exact absurd (fun required hsome => by rw [hfork] at hsome; cases hsome) h
  · rename_i required hfork
    split
    · exact ⟨_, _, rfl⟩
    · rename_i actual hactual
      split
      · exact ⟨_, _, rfl⟩
      · rename_i heq
        refine absurd (fun required' hsome => ?_) h
        rw [hfork] at hsome
        rw [hactual, ← not_not.mp heq, hsome]

end Filter

/-! ## What a section does -/

/-- Peers are added at the end of the queue, none with a discovered node, or the first one is taken. -/
def QueueStep (c c' : Crawler) : Prop :=
  ∃ added, (c'.queuedPeers = c.queuedPeers ++ added ∨ added = [] ∧ c'.queuedPeers = c.queuedPeers.tail) ∧
    ∀ peer ∈ added, peer.nodeId ∉ c.discoveredIds

/-- The callback is about to be called for the node. -/
def announces (nodeId : NodeId) : Option IngestPoint → Bool
  | some (.countDiscovered peer _) => peer.nodeId = nodeId
  | some (.callBack peer _) => peer.nodeId = nodeId
  | _ => false

def uncounted : Option IngestPoint → Bool
  | some (.countDiscovered _ _) => true
  | _ => false

/-- The peer that is behind the filter. -/
def checked : Option IngestPoint → Option ValidatedPeer
  | some (.record peer _) => some peer
  | some (.countDiscovered peer _) => some peer
  | some (.callBack peer _) => some peer
  | _ => none

/-- What a section, from the point `p` to the point `p'`, does to the crawler. A node is discovered once, and from then
on the callback is either about to be called for it, once, or has been. -/
structure SectionStep (c : Crawler) (p : Option IngestPoint) (c' : Crawler) (p' : Option IngestPoint) : Prop where
  forkId : c'.requiredForkId = c.requiredForkId
  queue : QueueStep c c'
  nodup : (c.queuedPeers.map (·.nodeId)).Nodup → (c'.queuedPeers.map (·.nodeId)).Nodup
  called : ∀ x, c'.emitted.countP (·.nodeId = x) + (if announces x p' then 1 else 0) +
    (if x ∈ c.discoveredIds then 1 else 0)
    = c.emitted.countP (·.nodeId = x) + (if announces x p then 1 else 0) + (if x ∈ c'.discoveredIds then 1 else 0)
  counted : c'.statDiscovered + (if uncounted p' then 1 else 0) + c.discoveredIds.card
    = c.statDiscovered + (if uncounted p then 1 else 0) + c'.discoveredIds.card
  emitted : ∀ peer ∈ c'.emitted, peer ∈ c.emitted ∨ checked p = some peer
  checked : ∀ peer, checked p' = some peer → checked p = some peer ∨ PassesFilter c.requiredForkId peer

section Sections

variable {c c' : Crawler} {p p' : Option IngestPoint}

theorem QueueStep.of_eq (h : c'.queuedPeers = c.queuedPeers) : QueueStep c c' :=
  ⟨[], .inl (by rw [h, List.append_nil]), nofun⟩

section Quiet

variable (hfork : c'.requiredForkId = c.requiredForkId) (hdiscovered : c'.discoveredIds = c.discoveredIds)
  (hemitted : c'.emitted = c.emitted) (hcounted : c'.statDiscovered = c.statDiscovered)
  (hannounces : ∀ x, announces x p' = announces x p) (huncounted : uncounted p' = uncounted p)
  (hchecked : ∀ peer, Discv5.checked p' = some peer → Discv5.checked p = some peer ∨
    PassesFilter c.requiredForkId peer)
include hfork hdiscovered hemitted hcounted hannounces huncounted hchecked

theorem SectionStep.of_queue (hqueue : QueueStep c c')
    (hnodup : (c.queuedPeers.map (·.nodeId)).Nodup → (c'.queuedPeers.map (·.nodeId)).Nodup) :
    SectionStep c p c' p' where
  forkId := hfork
  queue := hqueue
  nodup := hnodup
  called x := by rw [hemitted, hannounces, hdiscovered]
  counted := by rw [hcounted, huncounted, hdiscovered]
  emitted peer h := .inl (hemitted ▸ h)
  checked := hchecked

theorem SectionStep.of_quiet (hqueue : c'.queuedPeers = c.queuedPeers) : SectionStep c p c' p' :=
  .of_queue hfork hdiscovered hemitted hcounted hannounces huncounted hchecked (.of_eq hqueue) fun h => hqueue ▸ h

end Quiet

theorem Crawler.Admits.nodup {peer : ValidatedPeer} (h : c.Admits peer)
    (hnodup : (c.queuedPeers.map (·.nodeId)).Nodup) :
    ((c.queuedPeers ++ [peer]).map (·.nodeId)).Nodup := by
  rw [List.map_append, List.map_singleton]
  exact hnodup.append (List.nodup_singleton _) (List.disjoint_singleton.mpr h.notMem_queue)

/-- `process_found_peers` adds peers to the queue and counts the others. -/
theorem processFoundPeers_spec (c : Crawler) (peers : List ValidatedPeer) : ∃ added n,
    c.processFoundPeers peers = { c with queuedPeers := c.queuedPeers ++ added, statDuplicates := n } ∧
    (∀ peer ∈ added, peer.nodeId ∉ c.discoveredIds) ∧
    ((c.queuedPeers.map (·.nodeId)).Nodup → ((c.queuedPeers ++ added).map (·.nodeId)).Nodup) := by
  induction peers generalizing c with
  | nil => exact ⟨[], c.statDuplicates, by rw [List.append_nil]; rfl, nofun, fun h => by rwa [List.append_nil]⟩
  | cons peer peers ih =>
      obtain ⟨added, n, hrest, hnew, hnodup⟩ := ih (c.findPeer peer)
      have hcons : c.processFoundPeers (peer :: peers) = (c.findPeer peer).processFoundPeers peers := rfl
      rw [hcons, hrest]
      by_cases hadmits : c.Admits peer
      · rw [Crawler.findPeer_of_admits hadmits] at hnew hnodup ⊢
        refine ⟨peer :: added, n, by simp only [List.append_assoc, List.singleton_append], ?_, fun h => ?_⟩
        · intro q hq
          rcases List.mem_cons.mp hq with rfl | hq
          · exact hadmits.1
          · exact hnew q hq
        · rw [List.append_cons]
          exact hnodup (hadmits.nodup h)
      · rw [Crawler.findPeer_of_not_admits hadmits] at hnew hnodup ⊢
        exact ⟨added, n, rfl, hnew, hnodup⟩

theorem sectionStep_enter (c : Crawler) (call : ThreadCall) : SectionStep c none (c.enter call).1 (c.enter call).2 := by
  cases call with
  | processFoundPeers peers =>
      obtain ⟨added, n, heq, hnew, hnodup⟩ := processFoundPeers_spec c peers
      show SectionStep c none (c.processFoundPeers peers) none
      rw [heq]
      exact .of_queue rfl rfl rfl rfl (fun _ => rfl) rfl nofun ⟨added, .inl rfl, hnew⟩ hnodup
  | ingestDiscoveredPeers peers => exact .of_quiet rfl rfl rfl rfl (fun _ => rfl) rfl nofun rfl
  | dequeueNext =>
      show SectionStep c none c.dequeueNext.2 none
      unfold Crawler.dequeueNext
      cases hqueue : c.queuedPeers with
      | nil => exact .of_quiet rfl rfl rfl rfl (fun _ => rfl) rfl nofun rfl
      | cons peer rest =>
          refine .of_queue rfl rfl rfl rfl (fun _ => rfl) rfl nofun ⟨[], .inr ⟨rfl, by rw [hqueue]; rfl⟩, nofun⟩
            fun h => ?_
          rw [hqueue, List.map_cons] at h
          exact h.of_cons
  | markMeasured nodeId => exact .of_quiet rfl rfl rfl rfl (fun _ => rfl) rfl nofun rfl
  | markFailed nodeId => exact .of_quiet rfl rfl rfl rfl (fun _ => rfl) rfl nofun rfl

theorem sectionStep_queueNew (c : Crawler) (peer : ValidatedPeer) {p p' : Option IngestPoint}
    (hannounces : ∀ x, announces x p' = announces x p) (huncounted : uncounted p' = uncounted p)
    (hchecked : Discv5.checked p' = none) : SectionStep c p (c.queueNew peer) p' := by
  have hnone (q : ValidatedPeer) (h : Discv5.checked p' = some q) :
      Discv5.checked p = some q ∨ PassesFilter c.requiredForkId q := by
    rw [hchecked] at h
    cases h
  unfold Crawler.queueNew
  by_cases hadmits : c.Admits peer
  · rw [if_pos hadmits]
    refine .of_queue rfl rfl rfl rfl hannounces huncounted hnone ⟨[peer], .inl rfl, fun q hq => ?_⟩ hadmits.nodup
    rw [List.mem_singleton.mp hq]
    exact hadmits.1
  · rw [if_neg hadmits]
    exact .of_quiet rfl rfl rfl rfl hannounces huncounted hnone rfl

theorem sectionStep_look (c : Crawler) (peer : ValidatedPeer) (rest : List ValidatedPeer) :
    SectionStep c (some (.look (peer :: rest))) (c.queueNew peer)
      (some (if peer.nodeId ∈ c.discoveredIds then .countDuplicate rest else .emit peer rest)) := by
  split
  · exact sectionStep_queueNew c peer (fun _ => rfl) rfl rfl
  · exact sectionStep_queueNew c peer (fun _ => rfl) rfl rfl

theorem sectionStep_emit (c : Crawler) (peer : ValidatedPeer) (rest : List ValidatedPeer) :
    SectionStep c (some (.emit peer rest)) (IngestPoint.run c (.emit peer rest)).1
      (IngestPoint.run c (.emit peer rest)).2 := by
  by_cases hpasses : PassesFilter c.requiredForkId peer
  · rw [run_emit_of_passes hpasses]
    refine .of_quiet rfl rfl rfl rfl (fun _ => rfl) rfl (fun q hq => .inr ?_) rfl
    obtain rfl := Option.some.inj hq
    exact hpasses
  · obtain ⟨wrongChain, noEthEntry, hcounted⟩ := emitPeer_of_not_passes hpasses
    rw [run_emit_of_not_passes hpasses, hcounted]
    exact .of_quiet rfl rfl rfl rfl (fun _ => rfl) rfl nofun rfl

theorem sectionStep_record (c : Crawler) (peer : ValidatedPeer) (rest : List ValidatedPeer) :
    SectionStep c (some (.record peer rest)) (IngestPoint.run c (.record peer rest)).1
      (IngestPoint.run c (.record peer rest)).2 := by
  unfold IngestPoint.run
  by_cases hdiscovered : peer.nodeId ∈ c.discoveredIds
  · simp only [if_pos hdiscovered]
    exact .of_quiet rfl rfl rfl rfl (fun _ => rfl) rfl nofun rfl
  · simp only [if_neg hdiscovered]
    refine ⟨rfl, .of_eq rfl, id, fun x => ?_, ?_, fun q hq => .inl hq, fun q hq => .inl hq⟩
    · simp only [announces, Finset.mem_insert, decide_eq_true_eq]
      by_cases hx : peer.nodeId = x
      · subst hx
        simp only [hdiscovered, if_true, if_false, true_or, Bool.false_eq_true, Nat.add_zero]
      · simp only [if_neg hx, Ne.symm hx, false_or, Bool.false_eq_true, if_false]
    · simp only [uncounted, Finset.card_insert_of_notMem hdiscovered, if_true, Bool.false_eq_true, if_false]
      omega

/-- **Every section of `ingest_discovered_peers` is such a step.** -/
theorem sectionStep_run (c : Crawler) (point : IngestPoint) :
    SectionStep c (some point) (point.run c).1 (point.run c).2 := by
  cases point with
  | look peers =>
      cases peers with
      | nil => exact .of_quiet rfl rfl rfl rfl (fun _ => rfl) rfl nofun rfl
      | cons peer rest => exact sectionStep_look c peer rest
  | countDuplicate rest => exact .of_quiet rfl rfl rfl rfl (fun _ => rfl) rfl nofun rfl
  | emit peer rest => exact sectionStep_emit c peer rest
  | record peer rest => exact sectionStep_record c peer rest
  | countDiscovered peer rest =>
      refine ⟨rfl, .of_eq rfl, id, fun x => rfl, ?_, fun q hq => .inl hq, fun q hq => .inl hq⟩
      simp only [IngestPoint.run, uncounted, if_true, Bool.false_eq_true, if_false, Nat.add_zero]
  | callBack peer rest =>
      refine ⟨rfl, .of_eq rfl, id, fun x => ?_, rfl, fun q hq => ?_, nofun⟩
      · simp only [IngestPoint.run, announces, List.countP_append, List.countP_singleton, Bool.false_eq_true,
          if_false, Nat.add_zero]
        rfl
      · rcases List.mem_append.mp hq with hq | hq
        · exact .inl hq
        · exact .inr (congrArg some (List.mem_singleton.mp hq).symm)

theorem sectionStep_advance (c : Crawler) (thread : CrawlerThread) :
    SectionStep c thread.inside (thread.advance c).1 (thread.advance c).2.inside := by
  obtain ⟨calls, inside⟩ := thread
  cases inside with
  | some point => exact sectionStep_run c point
  | none =>
      cases calls with
      | nil => exact .of_quiet rfl rfl rfl rfl (fun _ => rfl) rfl nofun rfl
      | cons call calls => exact sectionStep_enter c call

end Sections

/-! ## Runs -/

/-- The invariant of all runs. -/
structure Consistent (requiredForkId : Option ForkId) (s : SharedCrawler) : Prop where
  forkId : s.crawler.requiredForkId = requiredForkId
  queue : (s.crawler.queuedPeers.map (·.nodeId)).Nodup
  /-- For a discovered node the callback was called once, or one thread is about to call it. -/
  called : ∀ x, s.crawler.emitted.countP (·.nodeId = x) + s.threads.countP (fun thread => announces x thread.inside)
    = if x ∈ s.crawler.discoveredIds then 1 else 0
  counted : s.crawler.statDiscovered + s.threads.countP (fun thread => uncounted thread.inside) =
    s.crawler.discoveredIds.card
  emitted : ∀ peer ∈ s.crawler.emitted, PassesFilter requiredForkId peer
  checked : ∀ thread ∈ s.threads, ∀ peer, checked thread.inside = some peer → PassesFilter requiredForkId peer

theorem consistent_new (requiredForkId : Option ForkId) (programs : List (List ThreadCall)) :
    Consistent requiredForkId (.new requiredForkId programs) := by
  have hinside : ∀ thread ∈ (SharedCrawler.new requiredForkId programs).threads, thread.inside = none := by
    intro thread hmem
    obtain ⟨calls, -, rfl⟩ := List.mem_map.mp hmem
    rfl
  have hzero (f : Option IngestPoint → Bool) (hf : f none = false) :
      (SharedCrawler.new requiredForkId programs).threads.countP (fun thread => f thread.inside) = 0 := by
    rw [List.countP_eq_zero]
    intro thread hmem
    rw [hinside thread hmem, hf]
    exact Bool.false_ne_true
  refine ⟨rfl, List.nodup_nil, fun x => ?_, ?_, nofun, ?_⟩
  · rw [hzero (announces x) rfl]
    rfl
  · rw [hzero uncounted rfl]
    rfl
  · intro thread hmem peer h
    rw [hinside thread hmem] at h
    cases h

/-- **Every section of every thread keeps the crawler consistent.** -/
theorem Consistent.step {requiredForkId : Option ForkId} {s : SharedCrawler}
    (h : Consistent requiredForkId s) (k : Nat) :
    Consistent requiredForkId (s.step k) := by
  unfold SharedCrawler.step
  cases hk : s.threads[k]? with
  | none => exact h
  | some thread =>
      have hstep := sectionStep_advance s.crawler thread
      have hmem := List.mem_of_getElem? hk
      refine ⟨hstep.forkId.trans h.forkId, hstep.nodup h.queue, fun x => ?_, ?_, ?_, ?_⟩
      · have hcalled := hstep.called x
        have hbefore := h.called x
        have hset := countP_set_add (fun thread => announces x thread.inside) hk (thread.advance s.crawler).2
        simp only at hset ⊢
        omega
      · have hcounted := hstep.counted
        have hbefore := h.counted
        have hset := countP_set_add (fun thread => uncounted thread.inside) hk (thread.advance s.crawler).2
        simp only at hset ⊢
        omega
      · intro peer hpeer
        rcases hstep.emitted peer hpeer with hold | hchecked
        · exact h.emitted peer hold
        · exact h.checked thread hmem peer hchecked
      · intro other hother peer hpeer
        rcases List.mem_or_eq_of_mem_set hother with hold | rfl
        · exact h.checked other hold peer hpeer
        · rcases hstep.checked peer hpeer with hbefore | hpasses
          · exact h.checked thread hmem peer hbefore
          · exact h.forkId ▸ hpasses

theorem consistent_run (requiredForkId : Option ForkId) (programs : List (List ThreadCall)) (schedule : List Nat) :
    Consistent requiredForkId ((SharedCrawler.new requiredForkId programs).run schedule) := by
  induction schedule using List.reverseRecOn with
  | nil => exact consistent_new requiredForkId programs
  | append_singleton schedule k ih =>
      unfold SharedCrawler.run at ih ⊢
      rw [List.foldl_concat]
      exact ih.step k

theorem queueStep_step (s : SharedCrawler) (k : Nat) : QueueStep s.crawler (s.step k).crawler := by
  unfold SharedCrawler.step
  cases s.threads[k]? with
  | none => exact .of_eq rfl
  | some thread => exact (sectionStep_advance s.crawler thread).queue

/-- **The crawler is consistent under every interleaving of the sections of its calls.** No node is in the queue twice;
the callback is called at most once for a node, and only for peers that pass the filter; once the calls have returned,
as many nodes are counted as are discovered; and whichever section comes next, it puts no discovered node into the
queue. -/
theorem crawler_consistent (requiredForkId : Option ForkId) (programs : List (List ThreadCall)) (schedule : List Nat) :
    let s := (SharedCrawler.new requiredForkId programs).run schedule
    (s.crawler.queuedPeers.map (·.nodeId)).Nodup ∧
    (s.crawler.emitted.map (·.nodeId)).Nodup ∧
    (∀ peer ∈ s.crawler.emitted, PassesFilter requiredForkId peer) ∧
    (s.Idle → s.crawler.statDiscovered = s.crawler.discoveredIds.card) ∧
    ∀ k, QueueStep s.crawler (s.step k).crawler := by
  intro s
  have h : Consistent requiredForkId s := consistent_run requiredForkId programs schedule
  refine ⟨h.queue, ?_, h.emitted, fun hidle => ?_, queueStep_step s⟩
  · rw [List.nodup_iff_count_le_one]
    intro x
    have hcalled := h.called x
    have hcount : (s.crawler.emitted.map (·.nodeId)).count x = s.crawler.emitted.countP (·.nodeId = x) := by
      rw [List.count, List.countP_map]
      exact List.countP_congr fun peer _ => by simp
    rw [hcount]
    split at hcalled <;> omega
  · have hnone : s.threads.countP (fun thread => uncounted thread.inside) = 0 := by
      rw [List.countP_eq_zero]
      intro thread hmem
      rw [hidle thread hmem]
      exact Bool.false_ne_true
    have hcounted := h.counted
    omega

/-! ## A call on its own -/

/-- Some sections of one call, with no others in between. -/
def Sections (s t : Crawler × Option IngestPoint) : Prop :=
  Relation.ReflTransGen (fun s t => ∃ point, s.2 = some point ∧ t = point.run s.1) s t

theorem sections_emit (c : Crawler) (peer : ValidatedPeer) (rest : List ValidatedPeer) :
    Sections (c, some (.emit peer rest)) (c.emitPeer peer, some (.look rest)) := by
  by_cases hpasses : PassesFilter c.requiredForkId peer
  · refine .head ⟨_, rfl, rfl⟩ ?_
    rw [run_emit_of_passes hpasses, emitPeer_of_passes hpasses]
    refine .head ⟨_, rfl, rfl⟩ ?_
    unfold IngestPoint.run Crawler.emitOnce
    by_cases hdiscovered : peer.nodeId ∈ c.discoveredIds
    · simp only [if_pos hdiscovered]
      exact .refl
    · simp only [if_neg hdiscovered]
      exact .head ⟨_, rfl, rfl⟩ (.head ⟨_, rfl, rfl⟩ .refl)
  · exact .single ⟨_, rfl, (run_emit_of_not_passes hpasses).symm⟩

theorem sections_peer (c : Crawler) (peer : ValidatedPeer) (rest : List ValidatedPeer) :
    Sections (c, some (.look (peer :: rest))) (c.ingestPeer peer, some (.look rest)) := by
  refine .head ⟨_, rfl, rfl⟩ ?_
  unfold IngestPoint.run
  by_cases hdiscovered : peer.nodeId ∈ c.discoveredIds
  · have hqueue : c.queueNew peer = c := if_neg fun h => h.1 hdiscovered
    simp only [if_pos hdiscovered, hqueue, Crawler.ingestPeer_of_discovered hdiscovered]
    exact .single ⟨_, rfl, rfl⟩
  · simp only [if_neg hdiscovered, Crawler.ingestPeer_of_not_discovered hdiscovered]
    exact sections_emit (c.queueNew peer) peer rest

theorem sections_ingest (c : Crawler) (peers : List ValidatedPeer) :
    Sections (c, some (.look peers)) (c.ingestDiscoveredPeers peers, none) := by
  induction peers generalizing c with
  | nil => exact .single ⟨_, rfl, rfl⟩
  | cons peer peers ih => exact (sections_peer c peer peers).trans (ih (c.ingestPeer peer))

/-- **Without other threads, the sections of `ingest_discovered_peers` do what the call as a whole does.** -/
theorem run_ingest_alone {s : SharedCrawler} {k : Nat} {calls : List ThreadCall} {peers : List ValidatedPeer}
    (hk : s.threads[k]? = some ⟨calls, some (.look peers)⟩) :
    ∃ n, s.run (List.replicate n k) = ⟨s.crawler.ingestDiscoveredPeers peers, s.threads.set k ⟨calls, none⟩⟩ := by
  obtain ⟨hlt, hthread⟩ := List.getElem?_eq_some_iff.mp hk
  -- along the sections, the thread at `k` is where they have led to
  have hrun {t : Crawler × Option IngestPoint} (ht : Sections (s.crawler, some (.look peers)) t) :
      ∃ n, s.run (List.replicate n k) = ⟨t.1, s.threads.set k ⟨calls, t.2⟩⟩ := by
    induction ht with
    | refl => exact ⟨0, by rw [← hthread, List.set_getElem_self]; rfl⟩
    | @tail b t hsteps hstep ih =>
        obtain ⟨n, hn⟩ := ih
        obtain ⟨point, hpoint, rfl⟩ := hstep
        refine ⟨n + 1, ?_⟩
        unfold SharedCrawler.run at hn ⊢
        rw [List.replicate_succ', List.foldl_concat, hn, hpoint]
        simp only [SharedCrawler.step, List.getElem?_set_self hlt, CrawlerThread.advance, List.set_set]
  exact hrun (sections_ingest s.crawler peers)

end DevP2P.Discv5
