import DevP2P.Eth.Objects

/-!
# ABI values in the data of a log (`eth/abi_decoder.cpp`)

* `readUint256Be` : the number of a word, from four groups of eight bytes; `toNat_readUint256Be` : it is the big-endian
  one;
* `copyRange` : a copy out of a buffer, which fails where the source would read outside of it;
* `decodeAbiWord`, `decodeDynamic`, `decodeLogData` : the values of the parameters;
* `decodeLog` : the values of an event, those of the indexed parameters from the topics.
-/

namespace DevP2P.Eth.Abi
open DevP2P.Lib DevP2P.Rlp

def kAbiWordSize : Nat := 32
def kAbiAddressSize : Nat := 20
def kAbiAddressPadding : Nat := kAbiWordSize - kAbiAddressSize
def kAbiBoolByteIndex : Nat := kAbiWordSize - 1

/-- A decoded value; texts are kept as their bytes. -/
inductive AbiValue
  | address (value : Address)
  | uint256 (value : Uint256)
  | bytes32 (value : Hash256)
  | bool (value : Bool)
  | bytes (value : ByteBuffer)
  | string (value : Bytes)
deriving DecidableEq

inductive AbiParamKind
  | kAddress
  | kUint
  | kInt
  | kBytes32
  | kBool
  | kBytes
  | kString
deriving DecidableEq

structure AbiParam where
  kind : AbiParamKind
  indexed : Bool
deriving DecidableEq

abbrev AbiFault := Fault DecodingError

/-- The lambda `read64be`, at the front of `p`. -/
def read64be (p : Bytes) : Nat :=
  (Bytes.at p 0).toNat <<< 56 ||| (Bytes.at p 1).toNat <<< 48 ||| (Bytes.at p 2).toNat <<< 40 |||
    (Bytes.at p 3).toNat <<< 32 ||| (Bytes.at p 4).toNat <<< 24 ||| (Bytes.at p 5).toNat <<< 16 |||
    (Bytes.at p 6).toNat <<< 8 ||| (Bytes.at p 7).toNat

/-- `read_uint256_be`: the least significant of the four words of 64 bits comes last. -/
def readUint256Be (data : Hash256) : Uint256 :=
  BitVec.ofNat _ (read64be (data.bytes.drop 24) + read64be (data.bytes.drop 16) * 2 ^ 64 +
    read64be (data.bytes.drop 8) * 2 ^ 128 + read64be data.bytes * 2 ^ 192)

def isDynamic : AbiParamKind → Bool
  | .kBytes => true
  | .kString => true
  | _ => false

def decodeAbiWord (word : Hash256) : AbiParamKind → AbiValue
  | .kAddress => .address (FixedBytes.load 20 (word.bytes.drop kAbiAddressPadding))
  | .kUint => .uint256 (readUint256Be word)
  | .kInt => .uint256 (readUint256Be word)
  | .kBytes32 => .bytes32 word
  | .kBool => .bool (Bytes.at word.bytes kAbiBoolByteIndex != 0)
  | .kBytes => .bytes []
  | .kString => .string []

/-- A copy of the bytes from `off` to `off + len`; these are not sizes, so that nothing wraps around. -/
def copyRange (data : Bytes) (off len : Nat) : Except AbiFault Bytes := do
  rejectIf (data.length < off + len) .outOfBounds
  return (data.drop off).take len

def copyWord (data : Bytes) (off : Nat) : Except AbiFault Hash256 := do
  let word ← copyRange data off kAbiWordSize
  return FixedBytes.load 32 word

/-- The branch of `decode_log_data` for a dynamic parameter: the head slot holds an offset, the length stands there, and
the content behind it. The sums are of type `size_t`. -/
def decodeDynamic (data : Bytes) (headOffset : Nat) : Except AbiFault Bytes := do
  let offsetWord ← copyWord data headOffset
  let rawOffset := readUint256Be offsetWord
  rejectIf (kSizeModulus ≤ rawOffset.toNat) (.error .kOverflow)
  let tailOffset := rawOffset.toNat
  rejectIf (data.length < (tailOffset + kAbiWordSize) % kSizeModulus) (.error .kInputTooShort)
  let lenWord ← copyWord data tailOffset
  let rawLen := readUint256Be lenWord
  rejectIf (kSizeModulus ≤ rawLen.toNat) (.error .kOverflow)
  let contentLen := rawLen.toNat
  let contentOffset := (tailOffset + kAbiWordSize) % kSizeModulus
  rejectIf (data.length < (contentOffset + contentLen) % kSizeModulus) (.error .kInputTooShort)
  copyRange data contentOffset contentLen

/-- The value of a dynamic parameter, which is of the kind `kBytes` or `kString`. -/
def dynamicValue (kind : AbiParamKind) (content : Bytes) : AbiValue :=
  if kind = .kBytes then .bytes content else .string content

/-- The body of the loop of `decode_log_data`. -/
def decodeParam (data : Bytes) (i : Nat) (kind : AbiParamKind) : Except AbiFault AbiValue :=
  let headOffset := i * kAbiWordSize
  if isDynamic kind then do
    let content ← decodeDynamic data headOffset
    return dynamicValue kind content
  else do
    let word ← copyWord data headOffset
    return decodeAbiWord word kind

/-- The loop of `decode_log_data`, from parameter `i` on. -/
def decodeParams (data : Bytes) : Nat → List AbiParam → Except AbiFault (List AbiValue)
  | _, [] => .ok []
  | i, param :: params => do
    let val ← decodeParam data i param.kind
    let results ← decodeParams data (i + 1) params
    return val :: results

/-- `decode_log_data`. A parameter takes more than a word of memory, so `head_size` does not wrap around. -/
def decodeLogData (data : ByteBuffer) (params : List AbiParam) : Except AbiFault (List AbiValue) :=
  if params.isEmpty then .ok []
  else do
    let headSize := params.length * kAbiWordSize
    rejectIf (data.length < headSize) (.error .kInputTooShort)
    decodeParams data 0 params

/-- The topic of an event; `keccak256` is the hash of a text. -/
def eventSignatureHash (keccak256 : Bytes → Hash256) (signature : Bytes) : Hash256 := keccak256 signature

def decodeIndexedParam (topic : Hash256) (param : AbiParam) : AbiValue := decodeAbiWord topic param.kind

/-- The loop of `decode_log`, from `topicIndex` on: the values of the indexed parameters, and the other parameters. -/
def decodeTopics (topics : List Hash256) : Nat → List AbiParam → Except AbiFault (List AbiValue × List AbiParam)
  | _, [] => .ok ([], [])
  | topicIndex, param :: params =>
    if param.indexed then do
      rejectIf (topicIndex ≥ topics.length) (.error .kInputTooShort)
      let val := decodeIndexedParam (topics.getD topicIndex default) param
      let (results, dataParams) ← decodeTopics topics (topicIndex + 1) params
      return (val :: results, dataParams)
    else do
      let (results, dataParams) ← decodeTopics topics topicIndex params
      return (results, param :: dataParams)

def decodeLog (keccak256 : Bytes → Hash256) (log : LogEntry) (signature : Bytes) (params : List AbiParam) :
    Except AbiFault (List AbiValue) := do
  rejectIf log.topics.isEmpty (.error .kInputTooShort)
  let expectedSig := eventSignatureHash keccak256 signature
  rejectIf (log.topics.getD 0 default ≠ expectedSig) (.error .kUnexpectedString)
  let (results, dataParams) ← decodeTopics log.topics 1 params
  let dataVals ← decodeLogData log.data dataParams
  return results ++ dataVals

/-! ## Words -/

theorem shiftLeft_or {a b k : Nat} (h : b < 2 ^ k) : a <<< k ||| b = a * 2 ^ k + b := by
  rw [← Nat.shiftLeft_add_eq_or_of_lt h, Nat.shiftLeft_eq]

theorem read64be_eq {p : Bytes} (h : 8 ≤ p.length) : read64be p = beLoad (p.take 8) := by
  obtain ⟨x0, x1, x2, x3, x4, x5, x6, x7, rest, rfl⟩ :
      ∃ x0 x1 x2 x3 x4 x5 x6 x7 rest, p = x0 :: x1 :: x2 :: x3 :: x4 :: x5 :: x6 :: x7 :: rest := by
    rcases p with _ | ⟨x0, _ | ⟨x1, _ | ⟨x2, _ | ⟨x3, _ | ⟨x4, _ | ⟨x5, _ | ⟨x6, _ | ⟨x7, rest⟩⟩⟩⟩⟩⟩⟩⟩ <;> simp at h
    exact ⟨x0, x1, x2, x3, x4, x5, x6, x7, rest, rfl⟩
  have h1 := x1.toNat_lt
  have h2 := x2.toNat_lt
  have h3 := x3.toNat_lt
  have h4 := x4.toNat_lt
  have h5 := x5.toNat_lt
  have h6 := x6.toNat_lt
  have h7 := x7.toNat_lt
  -- from the last byte on, each byte is added in front of a smaller number
  simp only [read64be, Bytes.at_cons_zero, Bytes.at_cons_succ, Nat.or_assoc]
  rw [shiftLeft_or (k := 8) (by omega), shiftLeft_or (k := 16) (by omega), shiftLeft_or (k := 24) (by omega),
    shiftLeft_or (k := 32) (by omega), shiftLeft_or (k := 40) (by omega), shiftLeft_or (k := 48) (by omega),
    shiftLeft_or (k := 56) (by omega)]
  simp [beLoad]
  omega

theorem beLoad_eq_read64be {b : Bytes} (h : 8 ≤ b.length) :
    beLoad b = read64be b * 256 ^ (b.length - 8) + beLoad (b.drop 8) := by
  have happ := beLoad_append (b.take 8) (b.drop 8)
  rwa [List.take_append_drop, ← read64be_eq h, List.length_drop] at happ

theorem toNat_readUint256Be (word : Hash256) : (readUint256Be word).toNat = beLoad word.bytes := by
  obtain ⟨b, hb⟩ := word
  have e0 := beLoad_eq_read64be (b := b) (by omega)
  have e1 := beLoad_eq_read64be (b := b.drop 8) (by rw [List.length_drop]; omega)
  have e2 := beLoad_eq_read64be (b := b.drop 16) (by rw [List.length_drop]; omega)
  have e3 := beLoad_eq_read64be (b := b.drop 24) (by rw [List.length_drop]; omega)
  have hlt := beLoad_lt b
  have h32 : b.drop 32 = [] := List.drop_of_length_le (by omega)
  simp only [List.drop_drop, List.length_drop, hb, Nat.reduceSub, Nat.reduceAdd, h32, beLoad_nil] at e0 e1 e2 e3
  rw [hb] at hlt
  have hsum : read64be (b.drop 24) + read64be (b.drop 16) * 2 ^ 64 + read64be (b.drop 8) * 2 ^ 128 +
      read64be b * 2 ^ 192 =
      beLoad b := by omega
  unfold readUint256Be
  dsimp only
  rw [hsum]
  exact UIntTy.toNat_ofNat (T := .uint256) hlt

/-- The number in the word at `off`. -/
def wordAt (data : Bytes) (off : Nat) : Nat := beLoad ((data.drop off).take kAbiWordSize)

theorem copyWord_eq_ok {data : Bytes} {off : Nat} (h : off + kAbiWordSize ≤ data.length) :
    ∃ word, copyWord data off = .ok word ∧ (readUint256Be word).toNat = wordAt data off := by
  have hlen : ((data.drop off).take kAbiWordSize).length = 32 := by
    rw [List.length_take, List.length_drop]
    unfold kAbiWordSize at h ⊢
    omega
  refine ⟨FixedBytes.load 32 ((data.drop off).take kAbiWordSize), ?_, ?_⟩
  · unfold copyWord copyRange
    rw [Outcome.rejectIf_bind_of_not (by omega)]
    rfl
  · rw [toNat_readUint256Be, FixedBytes.bytes_load_self hlen, wordAt]

theorem copyWord_eq_error {data : Bytes} {off : Nat} (h : data.length < off + kAbiWordSize) :
    copyWord data off = .error .outOfBounds := by
  unfold copyWord copyRange
  rw [Outcome.rejectIf_bind_of h]
  rfl

end DevP2P.Eth.Abi
