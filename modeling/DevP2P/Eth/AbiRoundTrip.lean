import DevP2P.Eth.AbiBounds

/-!
# ABI encoding and decoding of an event

What a contract writes into a log, and that `decode_log` reads it back.

* `Arg` : the value of a parameter in the terms of the ABI; `Arg.word`, `Arg.tail` : its word, its bytes behind the
  heads;
* `encodeArgs` : heads and tails; the head of a dynamic value is the offset of its tail;
* `encodeLog` : topics and data of an event; `eventValues` : the values to be read;
* `decodeParams_encodeArgs` : the loop of `decode_log_data`, from any parameter on;
* `decodeLog_encodeLog` : the round trip.
-/

namespace DevP2P.Eth.Abi
open DevP2P.Lib DevP2P.Rlp

/-! ## The encoding -/

/-- The value of a parameter. Those of the smaller types, such as `uint8`, are among them. -/
inductive Arg
  | address (value : Address)
  | uint (value : Uint256)
  | int (value : Int) (bounds : -2 ^ 255 ≤ value ∧ value < 2 ^ 255)
  | bytes32 (value : Hash256)
  | bool (value : Bool)
  | bytes (value : Bytes)
  | string (value : Bytes)

/-- A word with the number `n`, as a topic. -/
def numberWord (n : Nat) : Hash256 := ⟨wordOf n, length_beStore kAbiWordSize n⟩

/-- The zero bytes behind a content of `n` bytes, up to the next word. -/
def padding (n : Nat) : Bytes := List.replicate ((kAbiWordSize - n % kAbiWordSize) % kAbiWordSize) 0

def Arg.kind : Arg → AbiParamKind
  | .address _ => .kAddress
  | .uint _ => .kUint
  | .int _ _ => .kInt
  | .bytes32 _ => .kBytes32
  | .bool _ => .kBool
  | .bytes _ => .kBytes
  | .string _ => .kString

/-- The word of a value type; a dynamic value is represented by the word `other`. -/
def Arg.word (other : Hash256) : Arg → Hash256
  | .address value =>
    ⟨List.replicate kAbiAddressPadding 0 ++ value.bytes, by simp [kAbiAddressPadding, kAbiWordSize, kAbiAddressSize]⟩
  | .uint value => numberWord value.toNat
  | .int value _ => numberWord (value % 2 ^ 256).toNat -- two's complement
  | .bytes32 value => value
  | .bool value => numberWord value.toNat
  | .bytes _ => other
  | .string _ => other

/-- Length, content and padding of a dynamic value. -/
def Arg.tail : Arg → Bytes
  | .bytes value => wordOf value.length ++ (value ++ padding value.length)
  | .string value => wordOf value.length ++ (value ++ padding value.length)
  | _ => []

def Arg.value : Arg → AbiValue
  | .address value => .address value
  | .uint value => .uint256 value
  | .int value _ => .uint256 (BitVec.ofInt 256 value)
  | .bytes32 value => .bytes32 value
  | .bool value => .bool value
  | .bytes value => .bytes value
  | .string value => .string value

/-- The value that is left of an indexed parameter, of which a dynamic one is only known by its hash. -/
def Arg.indexedValue : Arg → AbiValue
  | .bytes _ => .bytes []
  | .string _ => .string []
  | arg => arg.value

/-- The heads of `args`, where the next tail begins at `offset`. -/
def encodeHeads (offset : Nat) : List Arg → Bytes
  | [] => []
  | arg :: args => (arg.word (numberWord offset)).bytes ++ encodeHeads (offset + arg.tail.length) args

def encodeArgs (args : List Arg) : Bytes :=
  encodeHeads (args.length * kAbiWordSize) args ++ args.flatMap Arg.tail

/-- A parameter of an event with its value; `hash` is the topic of a dynamic one. -/
structure EventArg where
  arg : Arg
  indexed : Bool
  hash : Hash256

def EventArg.param (a : EventArg) : AbiParam := ⟨a.arg.kind, a.indexed⟩

def EventArg.topic (a : EventArg) : Hash256 := a.arg.word a.hash

def indexedArgs (args : List EventArg) : List EventArg := args.filter fun a => a.indexed

def dataArgs (args : List EventArg) : List EventArg := args.filter fun a => !a.indexed

def encodeLog (keccak256 : Bytes → Hash256) (address : Address) (signature : Bytes) (args : List EventArg) : LogEntry :=
  { address
    topics := keccak256 signature :: (indexedArgs args).map EventArg.topic
    data := encodeArgs ((dataArgs args).map EventArg.arg) }

/-- The values of the indexed parameters, then those of the other ones. -/
def eventValues (args : List EventArg) : List AbiValue :=
  (indexedArgs args).map (fun a => a.arg.indexedValue) ++ (dataArgs args).map (fun a => a.arg.value)

/-! ## Words -/

theorem beLoad_wordOf {n : Nat} (h : n < 2 ^ 256) : beLoad (wordOf n) = n :=
  beLoad_beStore_of_lt (by simpa [kAbiWordSize] using h)

@[simp] theorem length_wordOf (n : Nat) : (wordOf n).length = kAbiWordSize := length_beStore _ _

theorem readUint256Be_numberWord {n : Nat} {value : Uint256} (h : value.toNat = n) :
    readUint256Be (numberWord n) = value := by
  apply BitVec.eq_of_toNat_eq
  rw [toNat_readUint256Be, h]
  exact beLoad_wordOf (h ▸ value.isLt)

theorem at_numberWord_bool (b : Bool) : Bytes.at (numberWord b.toNat).bytes kAbiBoolByteIndex =
    UInt8.ofNat b.toNat := by
  cases b <;> decide

theorem decodeAbiWord_word (other : Hash256) (arg : Arg) :
    decodeAbiWord (arg.word other) arg.kind = arg.indexedValue := by
  cases arg with
  | address value =>
      have hdrop : (List.replicate kAbiAddressPadding 0 ++ value.bytes).drop kAbiAddressPadding = value.bytes :=
        List.drop_left' List.length_replicate
      show AbiValue.address (FixedBytes.load 20 _) = .address value
      rw [show ((Arg.address value).word other).bytes = List.replicate kAbiAddressPadding 0 ++ value.bytes from rfl,
        hdrop,
        FixedBytes.load_bytes]
  | uint value => exact congrArg AbiValue.uint256 (readUint256Be_numberWord rfl)
  | int value bounds => exact congrArg AbiValue.uint256 (readUint256Be_numberWord (BitVec.toNat_ofInt value))
  | bytes32 value => rfl
  | bool value =>
      show AbiValue.bool (Bytes.at (numberWord value.toNat).bytes kAbiBoolByteIndex != 0) = .bool value
      rw [at_numberWord_bool]
      cases value <;> rfl
  | bytes value => rfl
  | string value => rfl

theorem Arg.static_or_dynamic (arg : Arg) :
    (isDynamic arg.kind = false ∧ arg.indexedValue = arg.value) ∨
      ∃ content, isDynamic arg.kind = true ∧ (∀ other, arg.word other = other) ∧
        arg.value = dynamicValue arg.kind content ∧
        arg.tail = wordOf content.length ++ (content ++ padding content.length) := by
  cases arg with
  | bytes value => exact .inr ⟨value, rfl, fun _ => rfl, rfl, rfl⟩
  | string value => exact .inr ⟨value, rfl, fun _ => rfl, rfl, rfl⟩
  | _ => exact .inl ⟨rfl, rfl⟩

theorem length_encodeHeads (offset : Nat) (args : List Arg) :
    (encodeHeads offset args).length = args.length * kAbiWordSize := by
  induction args generalizing offset with
  | nil => simp [encodeHeads]
  | cons arg args ih =>
      have hword : (arg.word (numberWord offset)).bytes.length = kAbiWordSize := FixedBytes.length_bytes _
      rw [encodeHeads, List.length_append, ih, hword, List.length_cons, Nat.succ_mul, Nat.add_comm]

/-! ## The data -/

theorem take_drop_append {front word rest : Bytes} {len : Nat} (hword : word.length = len) :
    ((front ++ (word ++ rest)).drop front.length).take len = word := by
  rw [List.drop_left, List.take_left' hword]

/-- A word behind `front`. -/
theorem copyWord_append {front rest : Bytes} (word : Hash256) :
    copyWord (front ++ (word.bytes ++ rest)) front.length = .ok word := by
  have hword : word.bytes.length = kAbiWordSize := word.length_bytes
  unfold copyWord copyRange
  rw [Outcome.rejectIf_bind_of_not (by simp only [List.length_append]; omega), take_drop_append hword]
  exact congrArg Except.ok (FixedBytes.load_bytes word)

theorem wordAt_append {front rest : Bytes} {n : Nat} (h : n < 2 ^ 256) :
    wordAt (front ++ (wordOf n ++ rest)) front.length = n := by
  rw [wordAt, take_drop_append (length_wordOf n), beLoad_wordOf h]

/-- A dynamic value: its offset stands behind `front`, its tail behind `behind`. -/
theorem decodeDynamic_append {data front behind rest rest' content : Bytes} {i : Nat}
    (hdata : data.length < kSizeModulus)
    (hfront : front.length = i * kAbiWordSize) (hhead : data = front ++ (wordOf behind.length ++ rest))
    (htail : data = behind ++ (wordOf content.length ++ (content ++ rest'))) :
    decodeDynamic data (i * kAbiWordSize) = .ok content := by
  have hsize : kSizeModulus = 2 ^ 64 := rfl
  have hlen := congrArg List.length htail
  simp only [List.length_append, length_wordOf] at hlen
  have hoffset : offsetOf data i = behind.length := by
    rw [offsetOf, ← hfront, hhead, wordAt_append (by omega)]
  have hlength : lengthOf data i = content.length := by
    rw [lengthOf, hoffset, htail, wordAt_append (by omega)]
  have hcontent : (data.drop (behind.length + kAbiWordSize)).take content.length = content := by
    rw [← List.drop_drop, htail, List.drop_left, List.drop_left' (length_wordOf _), List.take_left]
  have hheadLen := congrArg List.length hhead
  simp only [List.length_append, length_wordOf] at hheadLen
  rw [decodeDynamic_eq_ok_iff hdata (by omega), hoffset, hlength, hcontent]
  refine ⟨⟨?_, ?_⟩, rfl⟩
  · rw [hoffset]
    omega
  · rw [hoffset, hlength]
    omega

/-- One parameter, its head behind `front` and its tail behind `behind`. -/
theorem decodeParam_encode {data front behind rest rest' : Bytes} {i offset : Nat} (arg : Arg)
    (hdata : data.length < kSizeModulus)
    (hfront : front.length = i * kAbiWordSize) (hbehind : behind.length = offset)
    (hhead : data = front ++ ((arg.word (numberWord offset)).bytes ++ rest))
    (htail : data = behind ++ (arg.tail ++ rest')) :
    decodeParam data i arg.kind = .ok arg.value := by
  subst hbehind
  unfold decodeParam
  rcases arg.static_or_dynamic with ⟨hkind, hvalue⟩ | ⟨content, hkind, hword, hvalue, hcontent⟩
  · have hcopy : copyWord data (i * kAbiWordSize) = .ok (arg.word (numberWord behind.length)) := by
      rw [hhead, ← hfront, copyWord_append]
    simp only [hkind, Bool.false_eq_true, if_false]
    rw [hcopy, Outcome.ok_bind, decodeAbiWord_word, hvalue]
    rfl
  · rw [hword] at hhead
    rw [hcontent, List.append_assoc, List.append_assoc] at htail
    simp only [hkind, if_true]
    rw [decodeDynamic_append hdata hfront hhead htail, Outcome.ok_bind, hvalue]
    rfl

/-- The loop of `decode_log_data` from parameter `i` on: behind `front` stand the heads, behind them and `done` the
tails that are left. -/
theorem decodeParams_encodeArgs {data : Bytes} (hdata : data.length < kSizeModulus) (args : List EventArg) :
    ∀ (i offset : Nat) (front done : Bytes), front.length = i * kAbiWordSize →
      data = front ++ (encodeHeads offset (args.map EventArg.arg) ++
        (done ++ (args.map EventArg.arg).flatMap Arg.tail)) →
      offset = front.length + args.length * kAbiWordSize + done.length →
      decodeParams data i (args.map EventArg.param) = .ok (args.map fun a => a.arg.value) := by
  induction args with
  | nil =>
      intro i offset front done _ _ _
      rfl
  | cons a args ih =>
      intro i offset front done hfront hbytes hoffset
      simp only [List.map_cons, encodeHeads, List.flatMap_cons, List.append_assoc] at hbytes
      have hword : (a.arg.word (numberWord offset)).bytes.length = kAbiWordSize := FixedBytes.length_bytes _
      have htail : data = (front ++ ((a.arg.word (numberWord offset)).bytes ++
          (encodeHeads (offset + a.arg.tail.length) (args.map EventArg.arg) ++ done))) ++
            (a.arg.tail ++ (args.map EventArg.arg).flatMap Arg.tail) := by
        simpa only [List.append_assoc] using hbytes
      rw [List.length_cons, Nat.succ_mul] at hoffset
      have hval : decodeParam data i a.arg.kind = .ok a.arg.value := by
        refine decodeParam_encode a.arg hdata hfront ?_ hbytes htail
        simp only [List.length_append, length_encodeHeads, List.length_map, hword]
        omega
      -- this head joins those in front, its tail the ones that are done
      have hrest : decodeParams data (i + 1) (args.map EventArg.param) = .ok (args.map fun a => a.arg.value) := by
        refine ih (i + 1) (offset + a.arg.tail.length) (front ++ (a.arg.word (numberWord offset)).bytes)
          (done ++ a.arg.tail) ?_ ?_ ?_
        · rw [List.length_append, hword, hfront, Nat.succ_mul]
        · simpa only [List.append_assoc] using hbytes
        · simp only [List.length_append, hword]
          omega
      rw [List.map_cons, decodeParams, show a.param.kind = a.arg.kind from rfl, hval, Outcome.ok_bind, hrest]
      rfl

theorem decodeLogData_encodeArgs (args : List EventArg)
    (hsize : (encodeArgs (args.map EventArg.arg)).length < kSizeModulus) :
    decodeLogData (encodeArgs (args.map EventArg.arg)) (args.map EventArg.param) =
      .ok (args.map fun a => a.arg.value) := by
  have hhead : args.length * kAbiWordSize ≤ (encodeArgs (args.map EventArg.arg)).length := by
    rw [encodeArgs, List.length_append, length_encodeHeads, List.length_map]
    omega
  unfold decodeLogData
  cases args with
  | nil => rfl
  | cons a args =>
      rw [if_neg (by simp)]
      dsimp only
      rw [Outcome.rejectIf_bind_of_not (by rw [List.length_map]; omega)]
      refine decodeParams_encodeArgs hsize (a :: args) 0 (((a :: args).map EventArg.arg).length * kAbiWordSize) [] []
        (by simp) rfl ?_
      simp

/-! ## The topics -/

/-- The loop of `decode_log`: the next topic is the one behind `front`. -/
theorem decodeTopics_append (front : List Hash256) (args : List EventArg) :
    decodeTopics (front ++ (indexedArgs args).map EventArg.topic) front.length (args.map EventArg.param) =
      .ok ((indexedArgs args).map (fun a => a.arg.indexedValue), (dataArgs args).map EventArg.param) := by
  induction args generalizing front with
  | nil => rfl
  | cons a args ih =>
      cases ha : a.indexed with
      | false =>
          have hindexed : indexedArgs (a :: args) = indexedArgs args := by simp [indexedArgs, ha]
          have hdata : dataArgs (a :: args) = a :: dataArgs args := by simp [dataArgs, ha]
          rw [hindexed, hdata, List.map_cons, decodeTopics, if_neg (by simp [EventArg.param, ha]), ih front,
            Outcome.ok_bind]
          rfl
      | true =>
          have hindexed : indexedArgs (a :: args) = a :: indexedArgs args := by simp [indexedArgs, ha]
          have hdata : dataArgs (a :: args) = dataArgs args := by simp [dataArgs, ha]
          have hnext := ih (front ++ [a.topic])
          rw [List.append_assoc, List.length_append] at hnext
          rw [hindexed, hdata, List.map_cons, List.map_cons, decodeTopics, if_pos (by simp [EventArg.param, ha]),
            Outcome.rejectIf_bind_of_not (by simp)]
          dsimp only
          rw [show front ++ a.topic :: (indexedArgs args).map EventArg.topic =
              front ++ ([a.topic] ++ (indexedArgs args).map EventArg.topic) from rfl,
            show front.length + 1 = front.length + [a.topic].length from rfl, hnext, Outcome.ok_bind]
          have hval : decodeIndexedParam ((front ++ ([a.topic] ++ (indexedArgs args).map EventArg.topic)).getD
            front.length default)
              a.param = a.arg.indexedValue := by
            rw [List.getD_eq_getElem?_getD, List.getElem?_append_right le_rfl, Nat.sub_self]
            exact decodeAbiWord_word a.hash a.arg
          rw [hval]
          rfl

/-! ## The event -/

/-- **Round trip.** The log of an event is decoded to the values of its indexed parameters, and then of the other
ones. -/
theorem decodeLog_encodeLog (keccak256 : Bytes → Hash256) (address : Address) (signature : Bytes) (args : List EventArg)
    (hsize : (encodeLog keccak256 address signature args).data.length < 2 ^ 64) :
    decodeLog keccak256 (encodeLog keccak256 address signature args) signature (args.map EventArg.param) =
      .ok (eventValues args) := by
  have htopics := decodeTopics_append [keccak256 signature] args
  have hdata := decodeLogData_encodeArgs (dataArgs args) hsize
  unfold decodeLog
  dsimp only
  rw [Outcome.rejectIf_bind_of_not (by simp [encodeLog]),
    Outcome.rejectIf_bind_of_not (by simp [encodeLog, eventSignatureHash])]
  change (decodeTopics ([keccak256 signature] ++ (indexedArgs args).map EventArg.topic) 1 (args.map EventArg.param) >>=
    _) = _
  rw [show (1 : Nat) = [keccak256 signature].length from rfl, htopics, Outcome.ok_bind]
  change (decodeLogData (encodeArgs ((dataArgs args).map EventArg.arg)) _ >>= _) = _
  rw [hdata]
  rfl

/-- Indexed and other parameters in turn, three of them dynamic. -/
theorem decodeLog_encodeLog_mixed :
    let args : List EventArg :=
      [⟨.int (-1) (by decide), false, default⟩, ⟨.string [0x68, 0x69], true, default⟩,
        ⟨.bytes [1, 2, 3], false, default⟩,
        ⟨.bool true, true, default⟩, ⟨.string [], false, default⟩]
    decodeLog (fun _ => default) (encodeLog (fun _ => default) default [] args) [] (args.map EventArg.param) =
      .ok [.string [], .bool true, .uint256 (BitVec.ofInt 256 (-1)), .bytes [1, 2, 3], .string []] :=
  decodeLog_encodeLog _ _ _ _ (by decide +kernel)

end DevP2P.Eth.Abi
