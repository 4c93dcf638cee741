import DevP2P.Eth.Messages
import DevP2P.Eth.ObjectCodec

/-!
# The status message

* `StatusMessage.headFields`, `ForkId.fields`, `StatusMessage.tailFields` : the fields in front of the fork id, those of
  the fork id, and those behind it;
* `StatusRead` : what the decoder finds, with the length that each of the two list headers declares;
  `readStatus_eq_ok_iff` : it accepts exactly this;
* `encodeStatus_eq`, `decodeStatus_encoding` : a status message of a known version is decoded as it was encoded;
* `validateStatus`; `status_exchange_agrees` : two peers accept each other or none does.
-/

namespace DevP2P.Eth
open DevP2P.Lib DevP2P.Rlp Stateful

def ForkId.fields (forkId : ForkId) : List Field := [.string forkId.forkHash.bytes, .number .uint64 forkId.nextFork]

namespace StatusMessage

def protocolVersion : StatusMessage → Uint8
  | eth68 m => m.protocolVersion
  | eth69 m => m.protocolVersion

def forkId : StatusMessage → ForkId
  | eth68 m => m.forkId
  | eth69 m => m.forkId

def headFields : StatusMessage → List Field
  | eth68 m => [.number .uint8 m.protocolVersion, .number .uint64 m.networkId, .number .uint256 m.td,
      .string m.blockhash.bytes, .string m.genesisHash.bytes]
  | eth69 m => [.number .uint8 m.protocolVersion, .number .uint64 m.networkId, .string m.genesisHash.bytes]

def tailFields : StatusMessage → List Field
  | eth68 _ => []
  | eth69 m => [.number .uint64 m.earliestBlock, .number .uint64 m.latestBlock, .string m.latestBlockHash.bytes]

def Supported : StatusMessage → Prop
  | eth68 m => m.protocolVersion = kEthProtocolVersion68 ∨ m.protocolVersion = kEthProtocolVersion67 ∨
      m.protocolVersion = kEthProtocolVersion66
  | eth69 m => m.protocolVersion = kEthProtocolVersion69

instance (m : StatusMessage) : Decidable m.Supported := by
  unfold Supported
  cases m <;> infer_instance

def fields (m : StatusMessage) : List Field :=
  m.headFields ++ (.list (encodeFields m.forkId.fields) :: m.tailFields)

def encoding (m : StatusMessage) : Bytes := encodeList (encodeFields m.fields)

end StatusMessage

/-- What the decoder finds in `b`: a list header that declares `n` bytes, the fields `head`, the header of the fork id
that declares `k` bytes, the fields `fork` and `tail`, and the rest `r`. -/
structure StatusRead (b : Bytes) (m : StatusMessage) (n : Nat) (head : Bytes) (k : Nat)
    (fork tail r : Bytes) : Prop where
  supported : m.Supported
  headRead : Concat Field.Reads m.headFields head
  forkRead : Concat Field.Reads m.forkId.fields fork
  tailRead : Concat Field.Reads m.tailFields tail
  opens : Opens n head (headerBytes true k ++ (fork ++ (tail ++ r))) b
  forkOpens : Opens k fork (tail ++ r) (headerBytes true k ++ (fork ++ (tail ++ r)))

theorem parses_forkIdFields :
    Parses (do
      let forkHash ← readFixed 4
      let nextFork ← readNumber .uint64
      return ⟨forkHash, nextFork⟩ : DecodeM ForkId) fun forkId p => True ∧ Concat Field.Reads forkId.fields p := by
  unfold ForkId.fields
  refine (parses_readFixed 4).field ForkId.forkHash fun forkHash => ?_
  refine (parses_readNumber .uint64).field ForkId.nextFork fun nextFork => ?_
  refine Parses.done fun forkId => ⟨?_, ?_⟩
  · rintro ⟨rfl, rfl, -⟩
    rfl
  · rintro rfl
    exact ⟨rfl, rfl, trivial⟩

theorem readForkId_eq_ok_iff {b r : Bytes} {forkId : ForkId} :
    readForkId ⟨b⟩ = .ok forkId ⟨r⟩ ↔ ∃ k fork, Opens k fork r b ∧ Concat Field.Reads forkId.fields fork := by
  unfold readForkId
  rw [openList_eq_ok_iff parses_forkIdFields]
  simp only [true_and]

theorem readStatus68_eq_ok_iff {version : Uint8} {network : Uint64} {b r : Bytes} {m : StatusMessage68} :
    readStatus68 version network ⟨b⟩ = .ok m ⟨r⟩ ↔ (m.protocolVersion = version ∧ m.networkId = network) ∧
      ∃ head c k fork, Concat Field.Reads [.number .uint256 m.td, .string m.blockhash.bytes,
        .string m.genesisHash.bytes] head ∧
        b = head ++ c ∧ Opens k fork r c ∧ Concat Field.Reads m.forkId.fields fork := by
  unfold readStatus68
  rw [(parses_readNumber .uint256).bind_eq_ok]
  constructor
  · rintro ⟨td, p₁, b₁, h₁, rfl, hok₁⟩
    obtain ⟨blockhash, p₂, b₂, h₂, rfl, hok₂⟩ := (parses_readFixed 32).bind_eq_ok.mp hok₁
    obtain ⟨genesisHash, p₃, b₃, h₃, rfl, hok₃⟩ := (parses_readFixed 32).bind_eq_ok.mp hok₂
    obtain ⟨forkId, ⟨b₄⟩, hfork, hend⟩ := bind_eq_ok.mp hok₃
    obtain ⟨k, fork, hopens, hread⟩ := readForkId_eq_ok_iff.mp hfork
    obtain ⟨rfl, ⟨⟩⟩ := pure_eq_ok.mp hend
    refine ⟨⟨rfl, rfl⟩, p₁ ++ (p₂ ++ p₃), b₃, k, fork, ?_, by simp only [List.append_assoc], hopens, hread⟩
    exact concat_cons.mpr ⟨p₁, _, h₁, concat_cons.mpr ⟨p₂, _, h₂, concat_singleton.mpr h₃, rfl⟩, rfl⟩
  · rintro ⟨⟨rfl, rfl⟩, head, c, k, fork, hhead, rfl, hopens, hread⟩
    obtain ⟨p₁, q₁, h₁, hrest, rfl⟩ := concat_cons.mp hhead
    obtain ⟨p₂, p₃, h₂, hlast, rfl⟩ := concat_cons.mp hrest
    have h₃ := concat_singleton.mp hlast
    refine ⟨m.td, p₁, p₂ ++ (p₃ ++ c), h₁, by simp only [List.append_assoc], ?_⟩
    rw [bind_of_ok ((parses_readFixed 32).run h₂ _), bind_of_ok ((parses_readFixed 32).run h₃ _),
      bind_of_ok (readForkId_eq_ok_iff.mpr ⟨k, fork, hopens, hread⟩)]
    rfl

theorem parses_status69Tail {version : Uint8} {network : Uint64} {genesisHash : Hash256} {forkId : ForkId} :
    Parses (do
      let earliestBlock ← readNumber .uint64
      let latestBlock ← readNumber .uint64
      let latestBlockHash ← readFixed 32
      return ⟨version, network, genesisHash, forkId, earliestBlock, latestBlock, latestBlockHash⟩ :
        DecodeM StatusMessage69)
      fun m p => (m.protocolVersion = version ∧ m.networkId = network ∧ m.genesisHash = genesisHash ∧
        m.forkId = forkId) ∧
        Concat Field.Reads (StatusMessage.eth69 m).tailFields p := by
  unfold StatusMessage.tailFields
  refine (parses_readNumber .uint64).field StatusMessage69.earliestBlock fun earliestBlock => ?_
  refine (parses_readNumber .uint64).field StatusMessage69.latestBlock fun latestBlock => ?_
  refine (parses_readFixed 32).field StatusMessage69.latestBlockHash fun latestBlockHash => ?_
  refine Parses.done fun m => ⟨?_, ?_⟩
  · rintro ⟨rfl, rfl, rfl, rfl, rfl, rfl, rfl⟩
    rfl
  · rintro rfl
    exact ⟨rfl, rfl, rfl, rfl, rfl, rfl, rfl⟩

theorem readStatus69_eq_ok_iff {version : Uint8} {network : Uint64} {b r : Bytes} {m : StatusMessage69} :
    readStatus69 version network ⟨b⟩ = .ok m ⟨r⟩ ↔ (m.protocolVersion = version ∧ m.networkId = network) ∧
      ∃ head c k fork tail, (Field.string m.genesisHash.bytes).Reads head ∧ b = head ++ c ∧ Opens k fork (tail ++ r) c ∧
        Concat Field.Reads m.forkId.fields fork ∧ Concat Field.Reads (StatusMessage.eth69 m).tailFields tail := by
  unfold readStatus69
  rw [(parses_readFixed 32).bind_eq_ok]
  constructor
  · rintro ⟨genesisHash, p, b₁, hp, rfl, hok⟩
    obtain ⟨forkId, ⟨b₂⟩, hfork, hok⟩ := bind_eq_ok.mp hok
    obtain ⟨k, fork, hopens, hread⟩ := readForkId_eq_ok_iff.mp hfork
    obtain ⟨tail, ⟨⟨hversion, hnetwork, rfl, rfl⟩, htail⟩, rfl⟩ := (parses_status69Tail _ _ _).mp hok
    exact ⟨⟨hversion, hnetwork⟩, p, b₁, k, fork, tail, hp, rfl, hopens, hread, htail⟩
  · rintro ⟨⟨hversion, hnetwork⟩, p, c, k, fork, tail, hp, rfl, hopens, hread, htail⟩
    refine ⟨m.genesisHash, p, c, hp, rfl, ?_⟩
    rw [bind_of_ok (readForkId_eq_ok_iff.mpr ⟨k, fork, hopens, hread⟩)]
    exact parses_status69Tail.run ⟨⟨hversion, hnetwork, rfl, rfl⟩, htail⟩ r

theorem readStatus_eq_ok_iff {b r : Bytes} {m : StatusMessage} :
    readStatus ⟨b⟩ = .ok m ⟨r⟩ ↔ ∃ n head k fork tail, StatusRead b m n head k fork tail r := by
  unfold readStatus openList
  rw [bind_eq_ok]
  constructor
  · rintro ⟨n, ⟨w⟩, hheader, hok⟩
    obtain ⟨hn, hle, rfl⟩ := readListHeaderBytes_eq_ok_iff.mp hheader
    obtain ⟨version, p₁, b₁, h₁, rfl, hok₁⟩ := (parses_readNumber .uint8).bind_eq_ok.mp hok
    obtain ⟨network, p₂, b₂, h₂, rfl, hok₂⟩ := (parses_readNumber .uint64).bind_eq_ok.mp hok₁
    by_cases h69 : version = kEthProtocolVersion69
    · rw [if_pos h69] at hok₂
      obtain ⟨msg, ⟨b₃⟩, hmsg, hend⟩ := bind_eq_ok.mp hok₂
      obtain ⟨rfl, ⟨⟩⟩ := pure_eq_ok.mp hend
      obtain ⟨⟨rfl, rfl⟩, p₃, c, k, fork, tail, h₃, rfl, hopens, hfork, htail⟩ := readStatus69_eq_ok_iff.mp hmsg
      obtain rfl := hopens.2.2
      refine ⟨n, p₁ ++ (p₂ ++ p₃), k, fork, tail, h69, ?_, hfork, htail, ⟨hn, ?_, ?_⟩, hopens⟩
      · exact concat_cons.mpr ⟨p₁, _, h₁, concat_cons.mpr ⟨p₂, _, h₂, concat_singleton.mpr h₃, rfl⟩, rfl⟩
      · simpa only [List.append_assoc] using hle
      · simp only [List.append_assoc]
    · rw [if_neg h69] at hok₂
      by_cases h68 : version = kEthProtocolVersion68 ∨ version = kEthProtocolVersion67 ∨ version = kEthProtocolVersion66
      · rw [if_pos h68] at hok₂
        obtain ⟨msg, ⟨b₃⟩, hmsg, hend⟩ := bind_eq_ok.mp hok₂
        obtain ⟨rfl, ⟨⟩⟩ := pure_eq_ok.mp hend
        obtain ⟨⟨rfl, rfl⟩, p₃, c, k, fork, h₃, rfl, hopens, hfork⟩ := readStatus68_eq_ok_iff.mp hmsg
        obtain rfl := hopens.2.2
        refine ⟨n, p₁ ++ (p₂ ++ p₃), k, fork, [], h68, ?_, hfork, concat_nil.mpr rfl, ⟨hn, ?_, ?_⟩, hopens⟩
        · exact concat_cons.mpr ⟨p₁, _, h₁, concat_cons.mpr ⟨p₂, _, h₂, h₃, rfl⟩, rfl⟩
        · simpa only [List.append_assoc, List.nil_append] using hle
        · simp only [List.append_assoc, List.nil_append]
      · rw [if_neg h68] at hok₂
        cases hok₂
  · rintro ⟨n, head, k, fork, tail, hsupported, hhead, hfork, htail, ⟨hn, hle, rfl⟩, hopens⟩
    refine ⟨n, _, readListHeaderBytes_eq_ok_iff.mpr ⟨hn, hle, rfl⟩, ?_⟩
    cases m with
    | eth69 msg =>
        obtain ⟨p₁, q₁, h₁, hrest, rfl⟩ := concat_cons.mp hhead
        obtain ⟨p₂, p₃, h₂, hlast, rfl⟩ := concat_cons.mp hrest
        have h69 : msg.protocolVersion = kEthProtocolVersion69 := hsupported
        simp only [List.append_assoc]
        rw [bind_of_ok ((parses_readNumber .uint8).run h₁ _),
          bind_of_ok ((parses_readNumber .uint64).run h₂ _), if_pos h69,
          bind_of_ok (readStatus69_eq_ok_iff.mpr
            ⟨⟨rfl, rfl⟩, p₃, _, k, fork, tail, concat_singleton.mp hlast, rfl, hopens, hfork, htail⟩)]
        rfl
    | eth68 msg =>
        obtain ⟨p₁, q₁, h₁, hrest, rfl⟩ := concat_cons.mp hhead
        obtain ⟨p₂, p₃, h₂, hlast, rfl⟩ := concat_cons.mp hrest
        obtain rfl := concat_nil.mp htail
        have h68 : msg.protocolVersion = kEthProtocolVersion68 ∨ msg.protocolVersion = kEthProtocolVersion67 ∨
            msg.protocolVersion = kEthProtocolVersion66 := hsupported
        have h69 : ¬ msg.protocolVersion = kEthProtocolVersion69 := by
          rcases h68 with h | h | h <;> rw [h] <;> decide
        simp only [List.append_assoc]
        rw [bind_of_ok ((parses_readNumber .uint8).run h₁ _),
          bind_of_ok ((parses_readNumber .uint64).run h₂ _), if_neg h69, if_pos h68,
          bind_of_ok (readStatus68_eq_ok_iff.mpr
            ⟨⟨rfl, rfl⟩, p₃, _, k, fork, hlast, rfl, hopens, hfork⟩)]
        rfl

/-! ## Round trip -/

theorem length_encodeFields_forkId (forkId : ForkId) : (encodeFields forkId.fields).length ≤ 54 := by
  apply (length_encodeFields_le_bound _ (by simp [ForkId.fields, Field.Sized, forkId.forkHash.size_eq]; decide)).trans
  simp [ForkId.fields, Field.bound, forkId.forkHash.size_eq]

theorem writes_forkId (forkId : ForkId) : Appends (addForkId forkId) (encodeList (encodeFields forkId.fields)) := by
  apply appends_listOf
  · apply (writes_fixed forkId.forkHash (by decide)).field
    exact (writes_number _).lastField
  · exact lt_of_le_of_lt (length_encodeFields_forkId forkId) (by decide)

theorem length_encodeFields_status (m : StatusMessage) : (encodeFields m.fields).length < kSizeModulus := by
  have hfork := length_encodeFields_forkId m.forkId
  have hsized : ∀ f ∈ m.fields, f.Sized := by
    have hlt : (encodeFields m.forkId.fields).length < kSizeModulus := lt_of_le_of_lt hfork (by decide)
    cases m with
    | eth68 m =>
        simp [StatusMessage.fields, StatusMessage.headFields, StatusMessage.tailFields, Field.Sized,
          m.blockhash.size_eq,
          m.genesisHash.size_eq, hlt]
        decide
    | eth69 m =>
        simp [StatusMessage.fields, StatusMessage.headFields, StatusMessage.tailFields, Field.Sized,
          m.latestBlockHash.size_eq, m.genesisHash.size_eq, hlt]
        decide
  have hbound : (m.fields.map Field.bound).sum ≤ 400 := by
    cases m with
    | eth68 m =>
        simp [StatusMessage.fields, StatusMessage.headFields, StatusMessage.tailFields, Field.bound,
          m.blockhash.size_eq,
          m.genesisHash.size_eq]
        omega
    | eth69 m =>
        simp [StatusMessage.fields, StatusMessage.headFields, StatusMessage.tailFields, Field.bound,
          m.latestBlockHash.size_eq, m.genesisHash.size_eq]
        omega
  exact lt_of_le_of_lt ((length_encodeFields_le_bound _ hsized).trans hbound) (by decide)

theorem encodeStatus_eq (m : StatusMessage) : encodeStatus m = .ok m.encoding := by
  have hsize := length_encodeFields_status m
  cases m with
  | eth68 m =>
      apply finalizeEncoding_eq
      apply appends_listOf _ hsize
      apply (writes_number _).field
      apply (writes_number _).field
      apply (writes_number _).field
      apply (writes_fixed m.blockhash (by decide)).field
      apply (writes_fixed m.genesisHash (by decide)).field
      exact (writes_forkId m.forkId).lastField (f := .list _)
  | eth69 m =>
      apply finalizeEncoding_eq
      apply appends_listOf _ hsize
      apply (writes_number _).field
      apply (writes_number _).field
      apply (writes_fixed m.genesisHash (by decide)).field
      apply (writes_forkId m.forkId).field (f := .list _)
      apply (writes_number _).field
      apply (writes_number _).field
      exact (writes_fixed m.latestBlockHash (by decide)).lastField

theorem decodeStatus_encoding {m : StatusMessage} (h : m.Supported) : decodeStatus m.encoding = .ok m := by
  have hsize := length_encodeFields_status m
  have hs := sized_of_length_encodeFields hsize
  have hread := fieldsRead_encodeFields hsize
  rw [StatusMessage.fields, encodeFields_append, encodeFields_cons] at hread hsize
  have hfork : (encodeFields m.forkId.fields).length < kSizeModulus := hs (.list _) (by simp [StatusMessage.fields])
  apply outcome_eq_ok.mpr
  refine ⟨⟨[]⟩, readStatus_eq_ok_iff.mpr ⟨_, encodeFields m.headFields, _, encodeFields m.forkId.fields,
    encodeFields m.tailFields, h, ?_, fieldsRead_encodeFields hfork, ?_, ⟨hsize, ?_, ?_⟩, ⟨hfork, ?_, rfl⟩⟩⟩
  · apply fieldsRead_encodeFields
    simp only [List.length_append] at hsize
    omega
  · apply fieldsRead_encodeFields
    simp only [List.length_append] at hsize
    omega
  · simp [Field.encoding, encodeList]
  · rw [List.append_nil, StatusMessage.encoding, encodeList, StatusMessage.fields, encodeFields_append,
      encodeFields_cons]
    simp only [Field.encoding, encodeList, List.append_assoc]
  · simp

/-! ## Validation -/

inductive StatusValidationError
  | kProtocolVersionMismatch
  | kNetworkIDMismatch
  | kGenesisMismatch
  | kInvalidBlockRange
deriving DecidableEq

namespace StatusMessage

def networkId : StatusMessage → Uint64
  | eth68 m => m.networkId
  | eth69 m => m.networkId

def genesisHash : StatusMessage → Hash256
  | eth68 m => m.genesisHash
  | eth69 m => m.genesisHash

def badRange : StatusMessage → Bool
  | eth68 _ => false
  | eth69 m => m.latestBlock ≠ 0 && m.earliestBlock > m.latestBlock

end StatusMessage

/-- `validate_status`. -/
def validateStatus (msg : StatusMessage) (expectedNetworkId : Uint64) (expectedGenesis : Hash256) :
    Except StatusValidationError Unit :=
  if msg.networkId ≠ expectedNetworkId then .error .kNetworkIDMismatch
  else if msg.genesisHash ≠ expectedGenesis then .error .kGenesisMismatch
  else if msg.badRange then .error .kInvalidBlockRange
  else .ok ()

/-- What the handler of `eth_watch` does with a Status: it goes on, or it disconnects. -/
def acceptStatus (ours : StatusMessage) (negotiated : Uint8) (payload : ByteView) : Bool :=
  match decodeStatus payload with
  | .error _ => false
  | .ok status => status.protocolVersion = negotiated && (validateStatus status ours.networkId ours.genesisHash).isOk

theorem acceptStatus_encoding {m : StatusMessage} (h : m.Supported) (ours : StatusMessage) (v : Uint8) :
    acceptStatus ours v m.encoding = true ↔
      m.protocolVersion = v ∧ m.networkId = ours.networkId ∧ m.genesisHash = ours.genesisHash ∧ m.badRange = false := by
  unfold acceptStatus validateStatus
  rw [decodeStatus_encoding h]
  dsimp only
  split_ifs <;> simp_all [Except.isOk, Except.toBool]

/-- **The exchange of Status agrees.** Two peers send each other their Status, of the version they negotiated and with
valid ranges: either both go on or both disconnect, and they go on exactly on one network with one genesis, whatever
their fork ids are. -/
theorem status_exchange_agrees {a b : StatusMessage} (ha : a.Supported) (hb : b.Supported)
    (hversion : a.protocolVersion = b.protocolVersion) (hrange : a.badRange = false ∧ b.badRange = false) :
    ∃ x y, encodeStatus a = .ok x ∧ encodeStatus b = .ok y ∧
      acceptStatus a a.protocolVersion y = acceptStatus b a.protocolVersion x ∧
      (acceptStatus a a.protocolVersion y = true ↔ a.networkId = b.networkId ∧ a.genesisHash = b.genesisHash) := by
  refine ⟨_, _, encodeStatus_eq a, encodeStatus_eq b, ?_, ?_⟩
  · rw [Bool.eq_iff_iff, acceptStatus_encoding ha, acceptStatus_encoding hb]
    grind
  · rw [acceptStatus_encoding hb]
    grind

/-- The Status of a peer whose chain ends at block `latest`. -/
def statusAt (networkId : Uint64) (genesis fork : UInt8) (latest : Uint64) : StatusMessage :=
  .eth69 ⟨kEthProtocolVersion69, networkId, .load _ (List.replicate 32 genesis),
    ⟨.load _ [fork, 1, 2, 3], 0⟩, 0, latest,
    .load _ [fork]⟩

/-- A peer meets one that is behind a fork, and goes on; it meets one of another network, and both disconnect. -/
theorem status_exchange_agrees_mainnet :
    (∃ x y, encodeStatus (statusAt 1 0xD4 0x9F 21000000) = .ok x ∧
      encodeStatus (statusAt 1 0xD4 0xDC 17034870) = .ok y ∧
      acceptStatus (statusAt 1 0xD4 0x9F 21000000) kEthProtocolVersion69 y = true ∧
      acceptStatus (statusAt 1 0xD4 0xDC 17034870) kEthProtocolVersion69 x = true) ∧
    ∃ x y, encodeStatus (statusAt 1 0xD4 0x9F 21000000) = .ok x ∧
      encodeStatus (statusAt 11155111 0x25 0x88 7000000) = .ok y ∧
      acceptStatus (statusAt 1 0xD4 0x9F 21000000) kEthProtocolVersion69 y = false ∧
      acceptStatus (statusAt 11155111 0x25 0x88 7000000) kEthProtocolVersion69 x = false := by
  constructor
  · obtain ⟨x, y, hx, hy, hsame, haccept⟩ := status_exchange_agrees (a := statusAt 1 0xD4 0x9F 21000000)
      (b := statusAt 1 0xD4 0xDC 17034870) rfl rfl rfl ⟨by decide, by decide⟩
    have hgo := haccept.mpr ⟨rfl, rfl⟩
    exact ⟨x, y, hx, hy, hgo, hsame.symm.trans hgo⟩
  · obtain ⟨x, y, hx, hy, hsame, haccept⟩ := status_exchange_agrees (a := statusAt 1 0xD4 0x9F 21000000)
      (b := statusAt 11155111 0x25 0x88 7000000) rfl rfl rfl ⟨by decide, by decide⟩
    have hstop := Bool.eq_false_iff.mpr fun h => absurd (haccept.mp h).1 (by decide)
    exact ⟨x, y, hx, hy, hstop, hsame.symm.trans hstop⟩

end DevP2P.Eth
