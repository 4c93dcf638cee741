import DevP2P.Discv5.EnrUri
import DevP2P.Lib.Regroup

/-!
# The text form of a record

`base64url_decode` shifts six bits for each character into an accumulator of 32 bits, and never clears it.

* `base64Alphabet`, `base64urlEncode` : the url-safe alphabet, and the encoding without padding;
* `base64Loop_of_alphabet`, `base64Loop_of_not_alphabet` : the loop on characters of the alphabet, and up to another
  one;
* `value_sextets` : the groups of the encoding of `d` are the bits of `d` and fewer than eight zeros;
* `base64url_decode_exact` : the decoder undoes the encoder, and accepts the alphabet.
-/

namespace DevP2P.Discv5
open DevP2P.Lib

/-! ## The encoding -/

def base64Alphabet : Bytes :=
  ascii ("ABCDEFGHIJKLMNOPQRSTUVWXYZ".toList ++ "abcdefghijklmnopqrstuvwxyz".toList ++ "0123456789-_".toList)

def base64Char (value : Nat) : UInt8 := base64Alphabet.getD value 0

/-- The groups of six bits of `d`, the last one filled up with zeros. -/
def sextets : Bytes → List Nat
  | [] => []
  | [a] => [a.toNat / 4, a.toNat % 4 * 16]
  | [a, b] => [a.toNat / 4, a.toNat % 4 * 16 + b.toNat / 16, b.toNat % 16 * 4]
  | a :: b :: c :: d =>
    [a.toNat / 4, a.toNat % 4 * 16 + b.toNat / 16, b.toNat % 16 * 4 + c.toNat / 64, c.toNat % 64] ++ sextets d

/-- The url-safe encoding of RFC 4648, without padding. -/
def base64urlEncode (d : Bytes) : Bytes := (sextets d).map base64Char

/-! ## The table -/

theorem kBase64UrlTable_base64Char {value : Nat} (h : value < 64) :
    (kBase64UrlTable (base64Char value)).toNat = value := by
  have hall : ∀ value : Fin 64, (kBase64UrlTable (base64Char value)).toNat = value := by decide +kernel
  exact hall ⟨value, h⟩

theorem base64Char_kBase64UrlTable (ch : UInt8) : kBase64UrlTable ch ≠ kBase64Invalid →
    (kBase64UrlTable ch).toNat < 64 ∧ base64Char (kBase64UrlTable ch).toNat = ch := by
  revert ch
  exact forall_uint8 (by decide +kernel)

theorem length_base64Alphabet : base64Alphabet.length = 64 := by decide +kernel

theorem mem_base64Alphabet_iff_base64Char {ch : UInt8} : ch ∈ base64Alphabet ↔ ∃ value < 64, base64Char value = ch := by
  have hlength := length_base64Alphabet
  have hchar (value : Nat) (h : value < base64Alphabet.length) : base64Char value = base64Alphabet[value] := by
    rw [base64Char, List.getD_eq_getElem?_getD, List.getElem?_eq_getElem h, Option.getD_some]
  rw [List.mem_iff_getElem]
  constructor
  · rintro ⟨value, h, hch⟩
    exact ⟨value, by omega, (hchar value h).trans hch⟩
  · rintro ⟨value, h, hch⟩
    exact ⟨value, by omega, (hchar value (by omega)).symm.trans hch⟩

theorem base64Char_mem {value : Nat} (h : value < 64) : base64Char value ∈ base64Alphabet :=
  mem_base64Alphabet_iff_base64Char.mpr ⟨value, h, rfl⟩

theorem kBase64UrlTable_lt {ch : UInt8} (h : ch ∈ base64Alphabet) : (kBase64UrlTable ch).toNat < 2 ^ 6 := by
  obtain ⟨value, hvalue, rfl⟩ := mem_base64Alphabet_iff_base64Char.mp h
  rw [kBase64UrlTable_base64Char hvalue]
  exact hvalue

theorem mem_base64Alphabet (ch : UInt8) : ch ∈ base64Alphabet ↔ kBase64UrlTable ch ≠ kBase64Invalid := by
  constructor
  · intro h hinvalid
    have hlt := kBase64UrlTable_lt h
    rw [hinvalid] at hlt
    exact absurd hlt (by decide)
  · intro h
    obtain ⟨hlt, hch⟩ := base64Char_kBase64UrlTable ch h
    exact mem_base64Alphabet_iff_base64Char.mpr ⟨_, hlt, hch⟩

/-! ## The loop -/

namespace EnrParser

theorem toNat_accumulator (accumulator : UInt32) {ch : UInt8} (h : ch ∈ base64Alphabet) :
    ((accumulator <<< UInt32.ofNat kBase64BitsPerChar) ||| (kBase64UrlTable ch).toUInt32).toNat =
      (accumulator.toNat * 2 ^ 6 + (kBase64UrlTable ch).toNat) % 2 ^ 32 := by
  have hlt := kBase64UrlTable_lt h
  -- 26 bits of the accumulator are kept
  have hsum : (accumulator.toNat * 2 ^ 6 + (kBase64UrlTable ch).toNat) % 2 ^ 32 % 2 ^ (26 + 6) =
      accumulator.toNat % 2 ^ 26 * 2 ^ 6 + (kBase64UrlTable ch).toNat := Packed.mod_push _ (by decide) hlt
  have hshift : (accumulator <<< UInt32.ofNat kBase64BitsPerChar).toNat = (accumulator.toNat % 2 ^ 26) <<< 6 := by
    rw [UInt32.toNat_shiftLeft, Nat.shiftLeft_eq, Nat.shiftLeft_eq]
    exact Nat.mul_mod_mul_right (2 ^ 6) accumulator.toNat (2 ^ 26)
  rw [Nat.mod_mod] at hsum
  rw [UInt32.toNat_or, hshift, UInt8.toNat_toUInt32, ← Nat.shiftLeft_add_eq_or_of_lt hlt, Nat.shiftLeft_eq, hsum]

theorem shiftRight_toUInt8 (accumulator : UInt32) {bits : Nat} (h : bits < 8) :
    (accumulator >>> UInt32.ofNat bits).toUInt8 = UInt8.ofNat (accumulator.toNat / 2 ^ bits) := by
  apply uint8_eq_of_toNat
  have hbits : (UInt32.ofNat bits).toNat % 32 = bits := by
    rw [UInt32.toNat_ofNat']
    omega
  rw [UInt32.toNat_toUInt8, UInt32.toNat_shiftRight, hbits, Nat.shiftRight_eq_div_pow, UInt8.toNat_ofNat']

theorem base64Loop_of_alphabet {gs : List Nat} {out : Bytes} {bits : Nat} {accumulator : UInt32} {body : Bytes}
    (h : Packed 6 gs out bits accumulator.toNat) (hbody : ∀ ch ∈ body, ch ∈ base64Alphabet) :
    ∃ out' bits' accumulator', base64Loop accumulator bits out body = .ok out' ∧
      Packed 6 (gs ++ body.map fun ch => (kBase64UrlTable ch).toNat) out' bits' accumulator' := by
  induction body generalizing gs out bits accumulator with
  | nil => exact ⟨out, bits, accumulator.toNat, rfl, by rwa [List.map_nil, List.append_nil]⟩
  | cons ch body ih =>
      obtain ⟨hch, hrest⟩ := List.forall_mem_cons.mp hbody
      have hbits := h.bits_lt
      have hlt := kBase64UrlTable_lt hch
      rw [base64Loop, if_neg ((mem_base64Alphabet ch).mp hch), List.map_cons, List.append_cons]
      dsimp only
      split_ifs with hfull
      · have hpush := h.push_byte (w := 32) (by omega) hlt (by decide) hfull
        rw [← toNat_accumulator accumulator hch, ← shiftRight_toUInt8 _ (by omega)] at hpush
        exact ih hpush hrest
      · have hpush := h.push_few (w := 32) (by omega) hlt (not_le.mp hfull)
        rw [← toNat_accumulator accumulator hch] at hpush
        exact ih hpush hrest

theorem base64Loop_of_not_alphabet {body : Bytes} (h : ∃ ch ∈ body, ch ∉ base64Alphabet)
    (accumulator : UInt32) (bits : Nat)
    (out : Bytes) : base64Loop accumulator bits out body = .error .kEnrBase64DecodeFailed := by
  induction body generalizing accumulator bits out with
  | nil =>
      obtain ⟨ch, hch, -⟩ := h
      cases hch
  | cons first body ih =>
      rw [base64Loop]
      by_cases hfirst : first ∈ base64Alphabet
      · have hrest : ∃ ch ∈ body, ch ∉ base64Alphabet := by
          obtain ⟨ch, hch, hnot⟩ := h
          rcases List.mem_cons.mp hch with rfl | hch
          · exact absurd hfirst hnot
          · exact ⟨ch, hch, hnot⟩
        rw [if_neg ((mem_base64Alphabet first).mp hfirst)]
        dsimp only
        split_ifs
        · exact ih hrest _ _ _
        · exact ih hrest _ _ _
      · rw [if_pos (not_not.mp fun hne => hfirst ((mem_base64Alphabet first).mpr hne))]

theorem base64urlDecode_of_alphabet {body : Bytes} (h : ∀ ch ∈ body.rdropWhile (· = '='.toUInt8), ch ∈ base64Alphabet) :
    ∃ out bits accumulator, base64urlDecode body = .ok out ∧
      Packed 6 ((body.rdropWhile (· = '='.toUInt8)).map fun ch => (kBase64UrlTable ch).toNat) out bits accumulator := by
  have hstart : Packed 6 [] [] 0 (0 : UInt32).toNat := Packed.nil 6 _
  exact base64Loop_of_alphabet hstart h

theorem base64urlDecode_of_not_alphabet {body : Bytes}
    (h : ¬ ∀ ch ∈ body.rdropWhile (· = '='.toUInt8), ch ∈ base64Alphabet) :
    base64urlDecode body = .error .kEnrBase64DecodeFailed := by
  push Not at h
  exact base64Loop_of_not_alphabet h 0 0 []

end EnrParser

/-! ## The round trip -/

theorem sextets_lt (d : Bytes) : ∀ x ∈ sextets d, x < 64 := by
  induction d using sextets.induct with
  | case1 => simp [sextets]
  | case2 a =>
      have ha := a.toNat_lt
      simp only [sextets, List.forall_mem_cons, List.not_mem_nil, false_implies, implies_true, and_true]
      omega
  | case3 a b =>
      have ha := a.toNat_lt
      have hb := b.toNat_lt
      simp only [sextets, List.forall_mem_cons, List.not_mem_nil, false_implies, implies_true, and_true]
      omega
  | case4 a b c d ih =>
      have ha := a.toNat_lt
      have hb := b.toNat_lt
      have hc := c.toNat_lt
      simp only [sextets, List.cons_append, List.nil_append, List.forall_mem_cons]
      refine ⟨by omega, by omega, by omega, by omega, ih⟩

/-- The groups are the bits of `d` and fewer than eight zeros. -/
theorem value_sextets (d : Bytes) :
    ∃ pad < 8, 8 * d.length + pad = 6 * (sextets d).length ∧ groupsValue 6 (sextets d) = beLoad d * 2 ^ pad := by
  induction d using sextets.induct with
  | case1 => exact ⟨0, by decide, rfl, rfl⟩
  | case2 a =>
      refine ⟨4, by decide, rfl, ?_⟩
      simp only [sextets, groupsValue, List.reverse_cons, List.reverse_nil, List.nil_append, List.cons_append,
        Nat.ofDigits_cons,
        Nat.ofDigits_nil, beLoad_singleton]
      omega
  | case3 a b =>
      refine ⟨2, by decide, rfl, ?_⟩
      simp only [sextets, groupsValue, List.reverse_cons, List.reverse_nil, List.nil_append, List.cons_append,
        Nat.ofDigits_cons,
        Nat.ofDigits_nil, beLoad_cons, beLoad_nil, List.length_cons, List.length_nil]
      omega
  | case4 a b c d ih =>
      obtain ⟨pad, hpad, hsize, hvalue⟩ := ih
      refine ⟨pad, hpad, ?_, ?_⟩
      · simp only [sextets, List.length_append, List.length_cons, List.length_nil]
        omega
      · have hfront : groupsValue 6 [a.toNat / 4, a.toNat % 4 * 16 + b.toNat / 16, b.toNat % 16 * 4 + c.toNat / 64,
          c.toNat % 64] =
            beLoad [a, b, c] := by
          simp only [groupsValue, List.reverse_cons, List.reverse_nil, List.nil_append, List.cons_append,
            Nat.ofDigits_cons,
            Nat.ofDigits_nil, beLoad_cons, beLoad_nil, List.length_cons, List.length_nil]
          omega
        have hweight : 2 ^ (6 * (sextets d).length) = 256 ^ d.length * 2 ^ pad := by
          rw [← hsize, Nat.pow_add, Nat.pow_mul]
        rw [sextets, groupsValue_append, hfront, hvalue, hweight, show a :: b :: c :: d =
          [a, b, c] ++ d from rfl, beLoad_append,
          Nat.add_mul, Nat.mul_assoc]

theorem map_kBase64UrlTable_base64urlEncode (d : Bytes) :
    (base64urlEncode d).map (fun ch => (kBase64UrlTable ch).toNat) = sextets d := by
  rw [base64urlEncode, List.map_map]
  exact (List.map_congr_left fun x hx => kBase64UrlTable_base64Char (sextets_lt d x hx)).trans (List.map_id _)

theorem base64urlEncode_alphabet (d : Bytes) : ∀ ch ∈ base64urlEncode d, ch ∈ base64Alphabet := by
  intro ch hch
  obtain ⟨x, hx, rfl⟩ := List.mem_map.mp hch
  exact base64Char_mem (sextets_lt d x hx)

theorem rdropWhile_padding {chars : Bytes} (h : ∀ ch ∈ chars, ch ∈ base64Alphabet) (k : Nat) :
    (chars ++ List.replicate k '='.toUInt8).rdropWhile (· = '='.toUInt8) = chars := by
  induction k with
  | zero =>
      rw [List.replicate_zero, List.append_nil, List.rdropWhile_eq_self_iff]
      intro hne hlast
      have hmem := h _ (List.getLast_mem hne)
      rw [of_decide_eq_true hlast] at hmem
      exact absurd hmem (by decide +kernel)
  | succ k ih => rw [List.replicate_succ', ← List.append_assoc, List.rdropWhile_concat_pos _ _ _ (by simp), ih]

/-- **base64url decoding undoes the encoding**, whatever the number of `=` behind it. It accepts the strings whose
characters in front of the trailing `=` are in the alphabet, and returns a byte for each eight bits of them. -/
theorem base64url_decode_exact (d : Bytes) (k : Nat) (body : Bytes) :
    EnrParser.base64urlDecode (base64urlEncode d ++ List.replicate k '='.toUInt8) = .ok d ∧
      ((∃ out, EnrParser.base64urlDecode body = .ok out) ↔
        ∀ ch ∈ body.rdropWhile (· = '='.toUInt8), ch ∈ base64Alphabet) ∧
      ∀ out, EnrParser.base64urlDecode body = .ok out →
        out.length = 6 * (body.rdropWhile (· = '='.toUInt8)).length / 8 := by
  refine ⟨?_, ?_, ?_⟩
  · have hchars := rdropWhile_padding (base64urlEncode_alphabet d) k
    obtain ⟨out, bits, accumulator, hdecode, hpacked⟩ :=
      EnrParser.base64urlDecode_of_alphabet (hchars.symm ▸ base64urlEncode_alphabet d)
    rw [hchars, map_kBase64UrlTable_base64urlEncode] at hpacked
    obtain ⟨pad, hpad, hsize, hvalue⟩ := value_sextets d
    rw [hdecode, hpacked.out_eq hpad hsize hvalue]
  · constructor
    · rintro ⟨out, hout⟩
      by_contra hnot
      rw [EnrParser.base64urlDecode_of_not_alphabet hnot] at hout
      cases hout
    · intro hall
      obtain ⟨out, -, -, hdecode, -⟩ := EnrParser.base64urlDecode_of_alphabet hall
      exact ⟨out, hdecode⟩
  · intro out hout
    by_cases hall : ∀ ch ∈ body.rdropWhile (· = '='.toUInt8), ch ∈ base64Alphabet
    · obtain ⟨out', bits, accumulator, hdecode, hpacked⟩ := EnrParser.base64urlDecode_of_alphabet hall
      obtain rfl := Except.ok.inj (hdecode.symm.trans hout)
      have hsize := hpacked.size
      have hbits := hpacked.bits_lt
      rw [List.length_map] at hsize
      omega
    · rw [EnrParser.base64urlDecode_of_not_alphabet hall] at hout
      cases hout

end DevP2P.Discv5
