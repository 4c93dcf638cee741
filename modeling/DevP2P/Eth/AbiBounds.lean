import DevP2P.Eth.Abi

/-!
# Reads outside the data of a log

The end of the length word and the end of the content are sums of type `size_t`, and are compared with the size of the
data after they wrapped around.

* `decodeDynamic_eq` : the checks of a dynamic parameter, one after the other;
* `Fits`, `Wraps` : the parameter lies inside the data; one of the two sums wraps around;
* `NoWrapFrom` : no parameter that is reached wraps around;
* `decodeLogData_in_bounds_iff` : nothing outside the data is read exactly if `NoWrapFrom` holds.
-/

namespace DevP2P.Eth.Abi
open DevP2P.Lib DevP2P.Rlp

/-- The offset of the dynamic parameter `i`. -/
def offsetOf (data : Bytes) (i : Nat) : Nat := wordAt data (i * kAbiWordSize)

/-- The length of the dynamic parameter `i`. -/
def lengthOf (data : Bytes) (i : Nat) : Nat := wordAt data (offsetOf data i)

/-- The length word and the content of parameter `i` are inside the data. -/
def Fits (data : Bytes) (i : Nat) : Prop :=
  offsetOf data i + kAbiWordSize ≤ data.length ∧ offsetOf data i + kAbiWordSize + lengthOf data i ≤ data.length

/-- The end of the length word is not a size, or it is inside the data and the end of the content is not a size. -/
def Wraps (data : Bytes) (i : Nat) : Prop :=
  (offsetOf data i < kSizeModulus ∧ kSizeModulus ≤ offsetOf data i + kAbiWordSize) ∨
    (offsetOf data i + kAbiWordSize ≤ data.length ∧ lengthOf data i < kSizeModulus ∧
      kSizeModulus ≤ offsetOf data i + kAbiWordSize + lengthOf data i)

instance (data : Bytes) (i : Nat) : Decidable (Fits data i) := inferInstanceAs (Decidable (_ ∧ _))

instance (data : Bytes) (i : Nat) : Decidable (Wraps data i) := inferInstanceAs (Decidable (_ ∨ _))

/-- No dynamic parameter from `i` on wraps around, as far as the loop gets. -/
def NoWrapFrom (data : Bytes) : Nat → List AbiParam → Prop
  | _, [] => True
  | i, param :: params =>
    if isDynamic param.kind then ¬ Wraps data i ∧ (Fits data i → NoWrapFrom data (i + 1) params)
    else NoWrapFrom data (i + 1) params

/-- Nothing is read outside the data, and the value of each dynamic parameter is the part of the data that its words
describe. -/
def InBounds (data : Bytes) (params : List AbiParam) : Prop :=
  decodeLogData data params ≠ .error .outOfBounds ∧
    ∀ values, decodeLogData data params = .ok values → ∀ i param, params[i]? = some param → isDynamic param.kind →
      Fits data i ∧ values[i]? =
        some (dynamicValue param.kind ((data.drop (offsetOf data i + kAbiWordSize)).take (lengthOf data i)))

/-! ## One parameter -/

theorem decodeDynamic_eq {data : Bytes} {i : Nat} (hhead : i * kAbiWordSize + kAbiWordSize ≤ data.length) :
    decodeDynamic data (i * kAbiWordSize) =
      let tailEnd := (offsetOf data i + kAbiWordSize) % kSizeModulus
      if kSizeModulus ≤ offsetOf data i then .error (.error .kOverflow)
      else if data.length < tailEnd then .error (.error .kInputTooShort)
      else if data.length < offsetOf data i + kAbiWordSize then .error .outOfBounds
      else if kSizeModulus ≤ lengthOf data i then .error (.error .kOverflow)
      else if data.length < (tailEnd + lengthOf data i) % kSizeModulus then .error (.error .kInputTooShort)
      else if data.length < tailEnd + lengthOf data i then .error .outOfBounds
      else .ok ((data.drop tailEnd).take (lengthOf data i)) := by
  obtain ⟨offsetWord, hoffsetWord, hoffset⟩ := copyWord_eq_ok hhead
  rw [← offsetOf] at hoffset
  unfold decodeDynamic
  rw [hoffsetWord, Outcome.ok_bind]
  simp only [hoffset]
  split_ifs with hbig hshort hout hlen hshort' hout'
  · rw [Outcome.rejectIf_bind_of hbig]
  · rw [Outcome.rejectIf_bind_of_not hbig, Outcome.rejectIf_bind_of hshort]
  · rw [Outcome.rejectIf_bind_of_not hbig, Outcome.rejectIf_bind_of_not hshort, copyWord_eq_error hout]
    rfl
  all_goals
    obtain ⟨lenWord, hlenWord, hlength⟩ := copyWord_eq_ok (not_lt.mp hout)
    rw [← lengthOf] at hlength
    rw [Outcome.rejectIf_bind_of_not hbig, Outcome.rejectIf_bind_of_not hshort, hlenWord, Outcome.ok_bind, hlength]
  · rw [Outcome.rejectIf_bind_of hlen]
  · rw [Outcome.rejectIf_bind_of_not hlen, Outcome.rejectIf_bind_of hshort']
  · rw [Outcome.rejectIf_bind_of_not hlen, Outcome.rejectIf_bind_of_not hshort', copyRange,
      Outcome.rejectIf_bind_of hout']
  · rw [Outcome.rejectIf_bind_of_not hlen, Outcome.rejectIf_bind_of_not hshort', copyRange,
      Outcome.rejectIf_bind_of_not hout']
    rfl

theorem bind_pure_cons_eq_error {val : AbiValue} {x : Except AbiFault (List AbiValue)} {e : AbiFault} :
    (do let results ← x; return val :: results) = .error e ↔ x = .error e := by
  cases x with
  | ok values => simp [pure, Except.pure]
  | error e' => simp

section

variable {data : Bytes} (hdata : data.length < kSizeModulus)

include hdata

theorem decodeDynamic_outOfBounds_iff {i : Nat} (hhead : i * kAbiWordSize + kAbiWordSize ≤ data.length) :
    decodeDynamic data (i * kAbiWordSize) = .error .outOfBounds ↔ Wraps data i := by
  have hsize : kSizeModulus = 18446744073709551616 := rfl
  rw [decodeDynamic_eq hhead]
  unfold Wraps
  simp only [hsize, kAbiWordSize] at hdata hhead ⊢
  split_ifs <;> simp only [true_iff, false_iff, reduceCtorEq, Except.error.injEq] <;> omega

theorem decodeDynamic_eq_ok_iff {i : Nat} {content : Bytes} (hhead : i * kAbiWordSize + kAbiWordSize ≤ data.length) :
    decodeDynamic data (i * kAbiWordSize) = .ok content ↔
      Fits data i ∧ content = (data.drop (offsetOf data i + kAbiWordSize)).take (lengthOf data i) := by
  have hsize : kSizeModulus = 18446744073709551616 := rfl
  rw [decodeDynamic_eq hhead]
  unfold Fits
  simp only [hsize, kAbiWordSize] at hdata hhead ⊢
  split_ifs with hbig hshort hout hlen hshort' hout'
  case neg =>
    have hmod : (offsetOf data i + 32) % 18446744073709551616 = offsetOf data i + 32 := by omega
    rw [hmod] at hout' ⊢
    rw [Except.ok.injEq, eq_comm]
    exact ⟨fun h => ⟨⟨by omega, by omega⟩, h⟩, fun h => h.2⟩
  all_goals
    simp only [false_iff]
    omega

theorem decodeParam_cases {i : Nat} (kind : AbiParamKind) (hhead : i * kAbiWordSize + kAbiWordSize ≤ data.length) :
    (isDynamic kind = false ∧ ∃ val, decodeParam data i kind = .ok val) ∨
      (isDynamic kind = true ∧ Wraps data i ∧ decodeParam data i kind = .error .outOfBounds) ∨
      (isDynamic kind = true ∧ ¬ Wraps data i ∧ Fits data i ∧ decodeParam data i kind =
        .ok (dynamicValue kind ((data.drop (offsetOf data i + kAbiWordSize)).take (lengthOf data i)))) ∨
      (isDynamic kind = true ∧ ¬ Wraps data i ∧ ¬ Fits data i ∧ ∃ e, decodeParam data i kind = .error (.error e)) := by
  unfold decodeParam
  cases hkind : isDynamic kind with
  | false =>
      obtain ⟨word, hword, -⟩ := copyWord_eq_ok hhead
      refine .inl ⟨rfl, decodeAbiWord word kind, ?_⟩
      rw [if_neg (by simp), hword]
      rfl
  | true =>
      have hwraps := decodeDynamic_outOfBounds_iff hdata hhead
      refine .inr ?_
      rw [if_pos rfl]
      cases hrun : decodeDynamic data (i * kAbiWordSize) with
      | ok content =>
          obtain ⟨hfits, rfl⟩ := (decodeDynamic_eq_ok_iff hdata hhead).mp hrun
          rw [hrun] at hwraps
          exact .inr (.inl ⟨rfl, fun h => (nomatch hwraps.mpr h), hfits, rfl⟩)
      | error e =>
          rw [hrun] at hwraps
          cases e with
          | outOfBounds => exact .inl ⟨rfl, hwraps.mp rfl, rfl⟩
          | error e =>
              refine .inr (.inr ⟨rfl, fun h => (nomatch hwraps.mpr h), fun hfits => ?_, e, rfl⟩)
              rw [(decodeDynamic_eq_ok_iff hdata hhead).mpr ⟨hfits, rfl⟩] at hrun
              cases hrun

/-! ## All parameters -/

theorem decodeParams_outOfBounds_iff (i : Nat) (params : List AbiParam)
    (hheads : (i + params.length) * kAbiWordSize ≤ data.length) :
    decodeParams data i params = .error .outOfBounds ↔ ¬ NoWrapFrom data i params := by
  induction params generalizing i with
  | nil => simp [decodeParams, NoWrapFrom]
  | cons param params ih =>
      rw [List.length_cons] at hheads
      have hhead : i * kAbiWordSize + kAbiWordSize ≤ data.length := by
        unfold kAbiWordSize at hheads ⊢
        omega
      have hrest := ih (i + 1) (by unfold kAbiWordSize at hheads ⊢; omega)
      unfold decodeParams NoWrapFrom
      rcases decodeParam_cases hdata param.kind hhead with
        ⟨hkind, val, hval⟩ | ⟨hkind, hwraps, hval⟩ | ⟨hkind, hwraps, hfits, hval⟩ | ⟨hkind, hwraps, hfits, e, hval⟩
      · rw [hval, Outcome.ok_bind, bind_pure_cons_eq_error, hrest, if_neg (by simp [hkind])]
      · rw [hval, Outcome.error_bind, if_pos hkind]
        simp [hwraps]
      · rw [hval, Outcome.ok_bind, bind_pure_cons_eq_error, hrest, if_pos hkind]
        simp [hwraps, hfits]
      · rw [hval, Outcome.error_bind, if_pos hkind]
        simp [hwraps, hfits]

theorem values_of_decodeParams {i : Nat} {params : List AbiParam} {values : List AbiValue}
    (hheads : (i + params.length) * kAbiWordSize ≤ data.length) (h : decodeParams data i params = .ok values)
    {j : Nat} {param : AbiParam} (hparam : params[j]? = some param) (hkind : isDynamic param.kind) :
    Fits data (i + j) ∧ values[j]? = some
      (dynamicValue param.kind ((data.drop (offsetOf data (i + j) + kAbiWordSize)).take (lengthOf data (i + j)))) := by
  induction params generalizing i j values with
  | nil => simp at hparam
  | cons first params ih =>
      rw [List.length_cons] at hheads
      have hhead : i * kAbiWordSize + kAbiWordSize ≤ data.length := by
        unfold kAbiWordSize at hheads ⊢
        omega
      obtain ⟨val, hval, h⟩ := Outcome.bind_eq_ok.mp h
      obtain ⟨results, hresults, h⟩ := Outcome.bind_eq_ok.mp h
      obtain rfl := Outcome.pure_eq_ok.mp h
      cases j with
      | zero =>
          rw [List.getElem?_cons_zero, Option.some.injEq] at hparam
          subst hparam
          rcases decodeParam_cases hdata first.kind hhead with
            ⟨hstatic, -⟩ | ⟨-, -, hrun⟩ | ⟨-, -, hfits, hrun⟩ | ⟨-, -, -, e, hrun⟩
          · rw [hkind] at hstatic
            cases hstatic
          · cases hval.symm.trans hrun
          · rw [hval, Except.ok.injEq] at hrun
            exact ⟨hfits, by rw [List.getElem?_cons_zero, hrun]; rfl⟩
          · cases hval.symm.trans hrun
      | succ j =>
          rw [List.getElem?_cons_succ] at hparam ⊢
          have hrest := ih (i := i + 1) (by unfold kAbiWordSize at hheads ⊢; omega) hresults hparam
          rwa [show i + 1 + j = i + (j + 1) by omega] at hrest

end

/-- **When the decoder reads inside the data.** Nothing is read outside the data of a log, and each dynamic value is
what its words describe, exactly if no dynamic parameter that is reached has an offset or a length whose end is not a
size. -/
theorem decodeLogData_in_bounds_iff (data : Bytes) (params : List AbiParam) (hdata : data.length < 2 ^ 64) :
    InBounds data params ↔ (params.length * kAbiWordSize ≤ data.length → NoWrapFrom data 0 params) := by
  unfold InBounds decodeLogData
  cases params with
  | nil => simp [NoWrapFrom]
  | cons param params =>
      rw [if_neg (by simp)]
      dsimp only
      by_cases hshort : data.length < (param :: params).length * kAbiWordSize
      · rw [Outcome.rejectIf_bind_of hshort]
        refine ⟨fun _ h => absurd hshort (not_lt.mpr h), fun _ => ⟨by simp, fun values h => nomatch h⟩⟩
      · rw [Outcome.rejectIf_bind_of_not hshort]
        have hheads : (0 + (param :: params).length) * kAbiWordSize ≤ data.length := by
          rw [Nat.zero_add]
          exact not_lt.mp hshort
        have hbounds := decodeParams_outOfBounds_iff hdata 0 (param :: params) hheads
        refine ⟨fun h _ => not_not.mp fun hwrap => h.1 (hbounds.mpr hwrap), fun h => ⟨?_, ?_⟩⟩
        · exact fun hout => hbounds.mp hout (h (not_lt.mp hshort))
        · intro values hvalues i param' hparam hkind
          have := values_of_decodeParams hdata hheads hvalues hparam hkind
          rwa [Nat.zero_add] at this

/-- A word with the number `n`. -/
def wordOf (n : Nat) : Bytes := beStore kAbiWordSize n

/-- A string of two bytes behind its offset and its length. -/
theorem decodeLogData_in_bounds_iff_two : InBounds (wordOf 32 ++ wordOf 2 ++ [0x68, 0x69]) [⟨.kString, false⟩] := by
  apply (decodeLogData_in_bounds_iff _ _ (by decide +kernel)).mpr
  intro _
  refine ⟨by decide +kernel, fun _ => trivial⟩

/-- The offset `2 ^ 64 - 32` passes the check for the length word, which is read from there. -/
theorem offset_wraps_around : decodeLogData (wordOf (2 ^ 64 - 32)) [⟨.kBytes, false⟩] = .error .outOfBounds ∧
    (offsetOf (wordOf (2 ^ 64 - 32)) 0 + kAbiWordSize) % kSizeModulus = 0 := by
  decide +kernel

end DevP2P.Eth.Abi
