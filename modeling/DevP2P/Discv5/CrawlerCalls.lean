import DevP2P.Discv5.Crawler
import DevP2P.Discv5.EnrUri
import DevP2P.Lib.Runs

/-!
# Calls of the crawler (`discv5/discv5_crawler.cpp`)

* `Discv5Crawler` : the peer table with the seeds, the flag that `start` sets and what the seeds are counted in;
* `enqueueEnrUri`, `enqueueEnodeUri`, `start`, `stop`, `addBootstrap` : where peers come from besides the packets;
* `CrawlerCall`, `call`, `returned` : sequences of calls, and the peers that `dequeueNext` returns in them;
* `Turn`, `heard` : the same as one peer heard of, or one asked for, after the other.
-/

namespace DevP2P.Discv5
open DevP2P.Lib DevP2P.Rlp

/-! ## Seeds -/

def kEnodePrefix : Bytes := ascii ['e', 'n', 'o', 'd', 'e', ':', '/', '/']
abbrev kPubkeyHexLen : Nat := 128

/-- The lambda `hex_to_nibble` of `enqueue_enode_uri`. -/
def hexToNibble (c : UInt8) : UInt8 :=
  if '0'.toUInt8 ≤ c ∧ c ≤ '9'.toUInt8 then c - '0'.toUInt8
  else if 'a'.toUInt8 ≤ c ∧ c ≤ 'f'.toUInt8 then 10 + (c - 'a'.toUInt8)
  else if 'A'.toUInt8 ≤ c ∧ c ≤ 'F'.toUInt8 then 10 + (c - 'A'.toUInt8)
  else 0xFF

/-- The loop over the digits of the key, two to a byte. -/
def decodeHexKey : Bytes → Option Bytes
  | hiChar :: loChar :: rest =>
    if hexToNibble hiChar = 0xFF ∨ hexToNibble loChar = 0xFF then none
    else (decodeHexKey rest).map (((hexToNibble hiChar <<< 4) ||| hexToNibble loChar) :: ·)
  | _ => some []

/-- The loop over the digits of the port, in sixteen bits. -/
def decodePortDigits : UInt16 → Bytes → Option UInt16
  | port, [] => some port
  | port, c :: rest =>
    if c < '0'.toUInt8 ∨ c > '9'.toUInt8 then none
    else decodePortDigits (port * 10 + (c - '0'.toUInt8).toUInt16) rest

/-- `std::string_view::rfind` of a character. -/
def rfind (c : UInt8) (s : Bytes) : Option Nat := (s.reverse.findIdx? (· = c)).map fun i => s.length - 1 - i

/-- The peer of `enode://<128-hex-pubkey>@<ip>:<port>`. Every failure is counted in the same way. -/
def enodePeer (uri : Bytes) : Option ValidatedPeer := do
  guard (¬ uri.length < kEnodePrefix.length + kPubkeyHexLen + 2)
  let body := uri.drop kEnodePrefix.length
  guard (body.findIdx? (· = '@'.toUInt8) = some kPubkeyHexLen)
  let nodeId ← decodeHexKey (body.take kPubkeyHexLen)
  let hostPort := body.drop (kPubkeyHexLen + 1)
  let colonPos ← rfind ':'.toUInt8 hostPort
  let port ← decodePortDigits 0 (hostPort.drop (colonPos + 1))
  guard (port ≠ 0)
  return ⟨.load _ nodeId, hostPort.take colonPos, port, port, none⟩

/-- `discv5_crawler`. -/
structure Discv5Crawler extends Crawler where
  /-- `config_.bootstrap_enrs`. -/
  bootstrapEnrs : List Bytes
  running : Bool
  statInvalidEnr : Nat
  /-- The texts that the error callback was called with, in order. -/
  errors : List Bytes

namespace Discv5Crawler

def new (requiredForkId : Option ForkId) (bootstrapEnrs : List Bytes) : Discv5Crawler :=
  ⟨.new requiredForkId, bootstrapEnrs, false, 0, []⟩

def processFoundPeers (c : Discv5Crawler) (peers : List ValidatedPeer) : Discv5Crawler :=
  { c with toCrawler := c.toCrawler.processFoundPeers peers }

def addBootstrap (c : Discv5Crawler) (record : EnrRecord) : Discv5Crawler :=
  match EnrParser.toValidatedPeer record with
  | .error _ => { c with statInvalidEnr := c.statInvalidEnr + 1 }
  | .ok peer => c.processFoundPeers [peer]

variable (env : EnrPrimitives)

/-- `none` if the record parser reads outside an object. -/
def enqueueEnrUri (c : Discv5Crawler) (uri : Bytes) : Option Discv5Crawler :=
  match EnrParser.parse env uri with
  | .error .outOfBounds => none
  | .error (.error _) => some { c with
      statInvalidEnr := c.statInvalidEnr + 1
      errors := c.errors ++ [ascii "Invalid ENR URI: ".toList ++ uri.take 60] }
  | .ok record => match EnrParser.toValidatedPeer record with
    | .error _ => some { c with statInvalidEnr := c.statInvalidEnr + 1 }
    | .ok peer => some (c.processFoundPeers [peer])

def enqueueEnodeUri (c : Discv5Crawler) (uri : Bytes) : Discv5Crawler :=
  match enodePeer uri with
  | none => { c with statInvalidEnr := c.statInvalidEnr + 1 }
  | some peer => c.processFoundPeers [peer]

/-- One turn of the loop of `start`. -/
def enqueueUri (c : Discv5Crawler) (uri : Bytes) : Option Discv5Crawler :=
  if kEnrPrefix <+: uri then c.enqueueEnrUri env uri
  else if kEnodePrefix <+: uri then some (c.enqueueEnodeUri uri)
  else some c

def start (c : Discv5Crawler) : Option (Except Discv5Error Unit × Discv5Crawler) :=
  if c.running then some (.error .kCrawlerAlreadyRunning, c)
  else (c.bootstrapEnrs.foldlM (enqueueUri env) { c with running := true }).map (.ok (), ·)

def stop (c : Discv5Crawler) : Except Discv5Error Unit × Discv5Crawler :=
  if c.running then (.ok (), { c with running := false }) else (.error .kCrawlerNotRunning, c)

end Discv5Crawler

/-! ## Sequences of calls -/

inductive CrawlerCall
  | start
  | stop
  | addBootstrap (record : EnrRecord)
  | processFoundPeers (peers : List ValidatedPeer)
  | ingestDiscoveredPeers (peers : List ValidatedPeer)
  | dequeueNext

/-- A peer is heard of, by one of the two loops, or the next one is asked for. -/
inductive Turn
  | find (peer : ValidatedPeer)
  | ingest (peer : ValidatedPeer)
  | dequeue

def Turn.peer : Turn → Option ValidatedPeer
  | .find peer => some peer
  | .ingest peer => some peer
  | .dequeue => none

def Crawler.turn (c : Crawler) : Turn → Crawler × List ValidatedPeer
  | .find peer => (c.findPeer peer, [])
  | .ingest peer => (c.ingestPeer peer, [])
  | .dequeue => (c.dequeueNext.2, c.dequeueNext.1.toList)

namespace Discv5Crawler

variable (env : EnrPrimitives)

def call (c : Discv5Crawler) : CrawlerCall → Option (Discv5Crawler × List ValidatedPeer)
  | .start => (c.start env).map fun r => (r.2, [])
  | .stop => some (c.stop.2, [])
  | .addBootstrap record => some (c.addBootstrap record, [])
  | .processFoundPeers peers => some (c.processFoundPeers peers, [])
  | .ingestDiscoveredPeers peers => some ({ c with toCrawler := c.toCrawler.ingestDiscoveredPeers peers }, [])
  | .dequeueNext => some ({ c with toCrawler := c.toCrawler.dequeueNext.2 }, c.toCrawler.dequeueNext.1.toList)

/-- The peers that `dequeue_next` returns in a sequence of calls. -/
def returned : Discv5Crawler → List CrawlerCall → List ValidatedPeer
  | _, [] => []
  | c, a :: calls => match c.call env a with
    | none => []
    | some (c', peers) => peers ++ returned c' calls

def seedPeer (uri : Bytes) : Option ValidatedPeer :=
  if kEnrPrefix <+: uri then ((EnrParser.parse env uri).toOption.bind fun record =>
    (EnrParser.toValidatedPeer record).toOption)
  else if kEnodePrefix <+: uri then enodePeer uri
  else none

def turns (c : Discv5Crawler) : CrawlerCall → List Turn
  | .start => if c.running then [] else (c.bootstrapEnrs.filterMap (seedPeer env)).map .find
  | .stop => []
  | .addBootstrap record => (EnrParser.toValidatedPeer record).toOption.toList.map .find
  | .processFoundPeers peers => peers.map .find
  | .ingestDiscoveredPeers peers => peers.map .ingest
  | .dequeueNext => [.dequeue]

def heard : Discv5Crawler → List CrawlerCall → List Turn
  | _, [] => []
  | c, a :: calls => match c.call env a with
    | none => []
    | some (c', _) => c.turns env a ++ heard c' calls

end Discv5Crawler

/-! ## Calls are sequences of turns -/

theorem Crawler.runEffects_find (c : Crawler) (peers : List ValidatedPeer) :
    runEffects Crawler.turn c (peers.map .find) = (c.processFoundPeers peers, []) := by
  rw [runEffects_map]
  exact runEffects_eq_foldl (fun _ _ => rfl) c peers

theorem Crawler.runEffects_ingest (c : Crawler) (peers : List ValidatedPeer) :
    runEffects Crawler.turn c (peers.map .ingest) = (c.ingestDiscoveredPeers peers, []) := by
  rw [runEffects_map]
  exact runEffects_eq_foldl (fun _ _ => rfl) c peers

namespace Discv5Crawler

variable {env : EnrPrimitives} {c c' : Discv5Crawler}

theorem toCrawler_enqueueUri {uri : Bytes} (h : c.enqueueUri env uri = some c') :
    c'.toCrawler = c.toCrawler.processFoundPeers (seedPeer env uri).toList := by
  unfold enqueueUri at h
  unfold seedPeer
  split at h
  · rename_i henr
    rw [if_pos henr]
    unfold enqueueEnrUri at h
    cases hparse : EnrParser.parse env uri with
    | error e =>
        rw [hparse] at h
        cases e with
        | outOfBounds => cases h
        | error e =>
            obtain rfl := Option.some.inj h
            rfl
    | ok record =>
        rw [hparse] at h
        simp only [Except.toOption, Option.bind_some]
        cases hpeer : EnrParser.toValidatedPeer record with
        | error e =>
            simp only [hpeer, Option.some.injEq] at h
            rw [← h]
            rfl
        | ok peer =>
            simp only [hpeer, Option.some.injEq] at h
            rw [← h]
            rfl
  · rename_i henr
    rw [if_neg henr]
    split at h
    · rename_i henode
      rw [if_pos henode, ← Option.some.inj h, enqueueEnodeUri]
      cases enodePeer uri <;> rfl
    · rename_i henode
      rw [if_neg henode, ← Option.some.inj h]
      rfl

theorem toCrawler_seeds {uris : List Bytes} (h : uris.foldlM (enqueueUri env) c = some c') :
    c'.toCrawler = c.toCrawler.processFoundPeers (uris.filterMap (seedPeer env)) := by
  induction uris generalizing c with
  | nil =>
      obtain rfl := Option.some.inj h
      rfl
  | cons uri uris ih =>
      rw [List.foldlM_cons] at h
      obtain ⟨d, hd, htail⟩ := Option.bind_eq_some_iff.mp h
      rw [ih htail, toCrawler_enqueueUri hd, List.filterMap_cons]
      cases seedPeer env uri <;> rfl

/-- **A call does to the peer table what its turns do.** -/
theorem runEffects_turns {a : CrawlerCall} {peers : List ValidatedPeer} (h : c.call env a = some (c', peers)) :
    runEffects Crawler.turn c.toCrawler (c.turns env a) = (c'.toCrawler, peers) := by
  cases a with
  | start =>
      obtain ⟨r, hstart, hr⟩ := Option.map_eq_some_iff.mp h
      obtain ⟨rfl, rfl⟩ := Prod.mk.inj hr
      unfold start at hstart
      simp only [turns]
      split at hstart
      · rename_i hrunning
        obtain rfl := Option.some.inj hstart
        rw [if_pos hrunning]
        rfl
      · rename_i hrunning
        obtain ⟨d, hseeds, rfl⟩ := Option.map_eq_some_iff.mp hstart
        rw [if_neg hrunning, Crawler.runEffects_find, toCrawler_seeds hseeds]
  | stop =>
      obtain ⟨rfl, rfl⟩ := Prod.mk.inj (Option.some.inj h)
      unfold stop
      split <;> rfl
  | addBootstrap record =>
      obtain ⟨rfl, rfl⟩ := Prod.mk.inj (Option.some.inj h)
      simp only [turns, addBootstrap]
      cases EnrParser.toValidatedPeer record <;> rfl
  | processFoundPeers peers' =>
      obtain ⟨rfl, rfl⟩ := Prod.mk.inj (Option.some.inj h)
      exact Crawler.runEffects_find c.toCrawler peers'
  | ingestDiscoveredPeers peers' =>
      obtain ⟨rfl, rfl⟩ := Prod.mk.inj (Option.some.inj h)
      exact Crawler.runEffects_ingest c.toCrawler peers'
  | dequeueNext =>
      obtain ⟨rfl, rfl⟩ := Prod.mk.inj (Option.some.inj h)
      exact runEffects_singleton _ _

theorem returned_eq (env : EnrPrimitives) (c : Discv5Crawler) (calls : List CrawlerCall) :
    c.returned env calls = (runEffects Crawler.turn c.toCrawler (c.heard env calls)).2 := by
  induction calls generalizing c with
  | nil => rfl
  | cons a calls ih =>
      unfold returned heard
      cases hcall : c.call env a with
      | none => rfl
      | some r =>
          obtain ⟨c', peers⟩ := r
          simp only
          rw [runEffects_append, runEffects_turns hcall, ih]

end Discv5Crawler

end DevP2P.Discv5
