import DevP2P.Discv5.CrawlerCalls

/-!
# What is accepted as an enode URI

* `first_split`, `last_split` : a string cut at the first and at the last occurrence of a separator;
* `IsHexDigit`, `hexBytes` : keys in hex; `IsDigit`, `decimalValue` : decimal numbers, of any size;
* `EnodeForm` : `<128 hex digits>@<host>:<digits>`; `enodePeer_eq_some_iff` : what is accepted is of this form, and the
  port is the number modulo `2^16`;
* `enode_uri_exact_iff` : the parser is exact unless the number is too large for a port and does not wrap around to
  zero.
-/

namespace DevP2P.Discv5
open DevP2P.Lib

/-! ## Separators -/

theorem first_split {c : UInt8} {s : Bytes} {i : Nat} :
    s.findIdx? (· = c) = some i ↔ ∃ a b, s = a ++ c :: b ∧ a.length = i ∧ c ∉ a := by
  induction s generalizing i with
  | nil => simp
  | cons x s ih =>
      rw [List.findIdx?_cons]
      split_ifs with hx
      · rw [decide_eq_true_eq] at hx
        subst hx
        constructor
        · intro h
          exact ⟨[], s, rfl, Option.some.inj h, List.not_mem_nil⟩
        · rintro ⟨a, b, heq, rfl, hmem⟩
          cases a with
          | nil => rfl
          | cons y a =>
              obtain ⟨rfl, -⟩ := List.cons.inj heq
              exact absurd List.mem_cons_self hmem
      · rw [decide_eq_true_eq] at hx
        rw [Option.map_eq_some_iff]
        constructor
        · rintro ⟨j, hj, rfl⟩
          obtain ⟨a, b, rfl, rfl, hmem⟩ := ih.mp hj
          exact ⟨x :: a, b, rfl, rfl, by simp [hmem, Ne.symm hx]⟩
        · rintro ⟨a, b, heq, rfl, hmem⟩
          cases a with
          | nil => exact absurd (List.cons.inj heq).1 hx
          | cons y a =>
              obtain ⟨rfl, rfl⟩ := List.cons.inj heq
              exact ⟨a.length, ih.mpr ⟨a, b, rfl, rfl, fun h => hmem (List.mem_cons_of_mem _ h)⟩, rfl⟩

theorem last_split {c : UInt8} {s : Bytes} {i : Nat} :
    rfind c s = some i ↔ ∃ a b, s = a ++ c :: b ∧ a.length = i ∧ c ∉ b := by
  unfold rfind
  rw [Option.map_eq_some_iff]
  constructor
  · rintro ⟨j, hj, rfl⟩
    obtain ⟨a, b, heq, rfl, hmem⟩ := first_split.mp hj
    have hs : s = b.reverse ++ c :: a.reverse := by
      rw [← List.reverse_reverse s, heq]
      simp
    refine ⟨b.reverse, a.reverse, hs, ?_, by simpa using hmem⟩
    rw [hs]
    simp only [List.length_append, List.length_cons, List.length_reverse]
    omega
  · rintro ⟨a, b, rfl, rfl, hmem⟩
    refine ⟨b.length, first_split.mpr ⟨b.reverse, a.reverse, by simp, by simp, by simpa using hmem⟩, ?_⟩
    simp only [List.length_append, List.length_cons]
    omega

/-! ## Digits -/

def IsHexDigit (c : UInt8) : Prop :=
  '0'.toUInt8 ≤ c ∧ c ≤ '9'.toUInt8 ∨ 'a'.toUInt8 ≤ c ∧ c ≤ 'f'.toUInt8 ∨ 'A'.toUInt8 ≤ c ∧ c ≤ 'F'.toUInt8

instance : DecidablePred IsHexDigit := fun _ => inferInstanceAs (Decidable (_ ∨ _))

def hexValue (c : UInt8) : Nat :=
  if c ≤ '9'.toUInt8 then c.toNat - 48 else if 'a'.toUInt8 ≤ c then c.toNat - 87 else c.toNat - 55

def hexBytes : Bytes → Bytes
  | hi :: lo :: rest => UInt8.ofNat (16 * hexValue hi + hexValue lo) :: hexBytes rest
  | _ => []

def IsDigit (c : UInt8) : Prop := '0'.toUInt8 ≤ c ∧ c ≤ '9'.toUInt8

instance : DecidablePred IsDigit := fun _ => inferInstanceAs (Decidable (_ ∧ _))

def decimalValue (digits : Bytes) : Nat := digits.foldl (fun n c => n * 10 + (c.toNat - 48)) 0

theorem hexToNibble_eq_ff_iff (c : UInt8) : hexToNibble c = 0xFF ↔ ¬ IsHexDigit c :=
  forall_uint8 (P := fun c => hexToNibble c = 0xFF ↔ ¬ IsHexDigit c) (by decide +kernel) c

theorem hexToNibble_of_isHexDigit (c : UInt8) : IsHexDigit c → hexToNibble c = UInt8.ofNat (hexValue c) ∧
    hexValue c < 16 :=
  forall_uint8 (P := fun c => IsHexDigit c → hexToNibble c = UInt8.ofNat (hexValue c) ∧ hexValue c < 16)
    (by decide +kernel) c

theorem nibbles_eq : ∀ hi < 16, ∀ lo < 16, (UInt8.ofNat hi <<< 4) ||| UInt8.ofNat lo = UInt8.ofNat (16 * hi + lo) := by
  decide +kernel

theorem decodeHexKey_eq_some_iff {key bytes : Bytes} (heven : key.length % 2 = 0) :
    decodeHexKey key = some bytes ↔ (∀ c ∈ key, IsHexDigit c) ∧ bytes = hexBytes key := by
  induction key using decodeHexKey.induct generalizing bytes with
  | case1 hi lo rest hbad =>
      have hnot : ¬ ∀ c ∈ hi :: lo :: rest, IsHexDigit c := by
        rw [hexToNibble_eq_ff_iff, hexToNibble_eq_ff_iff] at hbad
        rw [List.forall_mem_cons, List.forall_mem_cons]
        rintro ⟨hhi, hlo, -⟩
        exact hbad.elim (fun h => h hhi) fun h => h hlo
      rw [decodeHexKey, if_pos hbad]
      exact ⟨nofun, fun h => absurd h.1 hnot⟩
  | case2 hi lo rest hgood ih =>
      have hdigits : IsHexDigit hi ∧ IsHexDigit lo := by
        rw [hexToNibble_eq_ff_iff, hexToNibble_eq_ff_iff, not_or, not_not, not_not] at hgood
        exact hgood
      obtain ⟨hhi, hhi16⟩ := hexToNibble_of_isHexDigit hi hdigits.1
      obtain ⟨hlo, hlo16⟩ := hexToNibble_of_isHexDigit lo hdigits.2
      have hrest : rest.length % 2 = 0 := by
        simp only [List.length_cons] at heven
        omega
      rw [decodeHexKey, if_neg hgood, hhi, hlo, nibbles_eq _ hhi16 _ hlo16, Option.map_eq_some_iff,
        List.forall_mem_cons,
        List.forall_mem_cons, hexBytes]
      constructor
      · rintro ⟨tail, htail, rfl⟩
        obtain ⟨hall, rfl⟩ := (ih hrest).mp htail
        exact ⟨⟨hdigits.1, hdigits.2, hall⟩, rfl⟩
      · rintro ⟨⟨-, -, hall⟩, rfl⟩
        exact ⟨_, (ih hrest).mpr ⟨hall, rfl⟩, rfl⟩
  | case3 key hshort =>
      obtain rfl : key = [] := by
        rcases key with _ | ⟨hi, _ | ⟨lo, rest⟩⟩
        · rfl
        · cases heven
        · exact absurd rfl (hshort hi lo rest)
      rw [decodeHexKey, hexBytes, Option.some.injEq, eq_comm]
      · simp
      · exact nofun
      · exact nofun

theorem length_hexBytes (key : Bytes) : (hexBytes key).length = key.length / 2 := by
  induction key using hexBytes.induct with
  | case1 hi lo rest ih =>
      rw [hexBytes, List.length_cons, ih, List.length_cons, List.length_cons]
      omega
  | case2 key hshort =>
      rcases key with _ | ⟨hi, _ | ⟨lo, rest⟩⟩
      · rfl
      · simp [hexBytes]
      · exact absurd rfl (hshort hi lo rest)

/-- The loop over the digits of the port, from the number `n` on. -/
theorem decodePortDigits_eq_some_iff {n : Nat} {digits : Bytes} {port : UInt16} :
    decodePortDigits (UInt16.ofNat n) digits = some port ↔
      (∀ c ∈ digits, IsDigit c) ∧ port = UInt16.ofNat (digits.foldl (fun n c => n * 10 + (c.toNat - 48)) n) := by
  induction digits generalizing n with
  | nil =>
      rw [decodePortDigits, Option.some.injEq, eq_comm]
      simp
  | cons c digits ih =>
      have hdigit : ¬ (c < '0'.toUInt8 ∨ c > '9'.toUInt8) ↔ IsDigit c := by
        rw [not_or, UInt8.not_lt, gt_iff_lt, UInt8.not_lt]
        rfl
      rw [decodePortDigits, List.forall_mem_cons, List.foldl_cons]
      split_ifs with hbad
      · exact ⟨nofun, fun h => absurd h.1.1 fun hc => hdigit.mpr hc hbad⟩
      · have hge : (48 : UInt8) ≤ c := (hdigit.mp hbad).1
        have hstep : UInt16.ofNat n * 10 + (c - '0'.toUInt8).toUInt16 = UInt16.ofNat (n * 10 + (c.toNat - 48)) := by
          have hsub : (c - '0'.toUInt8).toNat = c.toNat - 48 := UInt8.toNat_sub_of_le c 48 hge
          apply UInt16.toNat_inj.mp
          rw [UInt16.toNat_add, UInt16.toNat_mul, UInt16.toNat_ofNat', UInt8.toNat_toUInt16, hsub, UInt16.toNat_ofNat']
          show (n % 65536 * 10 % 65536 + _) % 65536 = _ % 65536
          omega
        rw [hstep, ih]
        exact ⟨fun h => ⟨⟨hdigit.mp hbad, h.1⟩, h.2⟩, fun h => ⟨h.1.2, h.2⟩⟩

/-! ## The form of the URI -/

/-- `<128 hex digits>@<host>:<digits>`. -/
structure EnodeForm (rest key host digits : Bytes) : Prop where
  eq : rest = key ++ '@'.toUInt8 :: (host ++ ':'.toUInt8 :: digits)
  key_length : key.length = 128
  key_hex : ∀ c ∈ key, IsHexDigit c
  digits_ne_nil : digits ≠ []
  digits_decimal : ∀ c ∈ digits, IsDigit c

theorem at_not_isHexDigit : ¬ IsHexDigit '@'.toUInt8 := by decide

theorem colon_not_isDigit : ¬ IsDigit ':'.toUInt8 := by decide

theorem guard_bind_eq_some {α : Type} {p : Prop} [Decidable p] {f : Unit → Option α} {a : α} :
    (guard p >>= f) = some a ↔ p ∧ f () = some a := by
  by_cases hp : p
  · simp [guard, hp]
  · simp [guard, hp]

theorem enodePeer_eq_some_iff {rest : Bytes} {peer : ValidatedPeer} :
    enodePeer (kEnodePrefix ++ rest) = some peer ↔ ∃ key host digits, EnodeForm rest key host digits ∧
      UInt16.ofNat (decimalValue digits) ≠ 0 ∧
      peer = ⟨.load _ (hexBytes key), host, UInt16.ofNat (decimalValue digits),
        UInt16.ofNat (decimalValue digits), none⟩ := by
  unfold enodePeer
  rw [guard_bind_eq_some, List.drop_left]
  dsimp only
  rw [guard_bind_eq_some, first_split]
  constructor
  · rintro ⟨hlen, ⟨key, tail, rfl, hkey, -⟩, h⟩
    obtain ⟨nodeId, hnodeId, h⟩ := Option.bind_eq_some_iff.mp h
    rw [List.take_left' hkey, decodeHexKey_eq_some_iff (by rw [hkey]; rfl)] at hnodeId
    obtain ⟨hhex, rfl⟩ := hnodeId
    have htail : (key ++ '@'.toUInt8 :: tail).drop (kPubkeyHexLen + 1) = tail := by
      rw [← List.drop_drop, List.drop_left' hkey, List.drop_one, List.tail_cons]
    rw [htail] at h
    obtain ⟨colonPos, hcolon, h⟩ := Option.bind_eq_some_iff.mp h
    obtain ⟨host, digits, rfl, rfl, -⟩ := last_split.mp hcolon
    obtain ⟨port, hport, h⟩ := Option.bind_eq_some_iff.mp h
    obtain ⟨hne, h⟩ := guard_bind_eq_some.mp h
    rw [List.take_left] at h
    rw [← List.drop_drop, List.drop_left, List.drop_one, List.tail_cons] at hport
    obtain ⟨hdigits, rfl⟩ := (decodePortDigits_eq_some_iff (n := 0)).mp hport
    refine ⟨key, host, digits, ⟨rfl, hkey, hhex, ?_, hdigits⟩, hne, (Option.some.inj h).symm⟩
    rintro rfl
    exact hne rfl
  · rintro ⟨key, host, digits, hform, hne, rfl⟩
    obtain ⟨rfl, hkey, hhex, hnil, hdigits⟩ := hform
    refine ⟨?_, ⟨key, _, rfl, hkey, fun hmem => at_not_isHexDigit (hhex _ hmem)⟩, ?_⟩
    · have hpos := List.length_pos_iff.mpr hnil
      simp only [List.length_append, List.length_cons, hkey, kPubkeyHexLen]
      omega
    have htail : (key ++ '@'.toUInt8 :: (host ++ ':'.toUInt8 :: digits)).drop (kPubkeyHexLen + 1) =
        host ++ ':'.toUInt8 :: digits := by
      rw [← List.drop_drop, List.drop_left' hkey, List.drop_one, List.tail_cons]
    have hcolon : rfind ':'.toUInt8 (host ++ ':'.toUInt8 :: digits) = some host.length :=
      last_split.mpr ⟨host, digits, rfl, rfl, fun hmem => colon_not_isDigit (hdigits _ hmem)⟩
    have hport : decodePortDigits 0 digits = some (UInt16.ofNat (decimalValue digits)) :=
      (decodePortDigits_eq_some_iff (n := 0)).mpr ⟨hdigits, rfl⟩
    rw [List.take_left' hkey, (decodeHexKey_eq_some_iff (by rw [hkey])).mpr ⟨hhex, rfl⟩, Option.bind_eq_bind,
      Option.bind_some, htail,
      hcolon, Option.bind_eq_bind, Option.bind_some, ← List.drop_drop, List.drop_left, List.drop_one,
      List.tail_cons, hport,
      Option.bind_eq_bind, Option.bind_some, guard_bind_eq_some, List.take_left]
    exact ⟨hne, rfl⟩

/-! ## Enqueuing -/

/-- The peer that a URI of the form stands for, if the number is a port. -/
def EnodeOf (rest : Bytes) (peer : ValidatedPeer) : Prop :=
  ∃ key host digits, EnodeForm rest key host digits ∧ 1 ≤ decimalValue digits ∧ decimalValue digits ≤ 65535 ∧
    peer.nodeId.bytes = hexBytes key ∧ peer.ip = host ∧ peer.udpPort.toNat = decimalValue digits ∧
    peer.tcpPort.toNat = decimalValue digits ∧ peer.ethForkId = none

/-- From a crawler without peers, exactly the URIs of the form are enqueued, as the peers they stand for; the other ones
are counted. -/
def EnodeExact (rest : Bytes) : Prop :=
  ∀ c : Discv5Crawler, c.queuedPeers = [] → c.discoveredIds = ∅ →
    let c' := c.enqueueEnodeUri (kEnodePrefix ++ rest)
    (∀ peer, c'.queuedPeers = [peer] ↔ EnodeOf rest peer) ∧
      ((¬ ∃ peer, EnodeOf rest peer) → c'.queuedPeers = c.queuedPeers ∧ c'.statInvalidEnr = c.statInvalidEnr + 1)

theorem queuedPeers_enqueueEnodeUri {c : Discv5Crawler} (hqueue : c.queuedPeers = [])
    (hdiscovered : c.discoveredIds = ∅)
    (uri : Bytes) : (c.enqueueEnodeUri uri).queuedPeers = (enodePeer uri).toList := by
  unfold Discv5Crawler.enqueueEnodeUri
  cases enodePeer uri with
  | none => exact hqueue
  | some peer =>
      have hadmits : c.toCrawler.Admits peer := ⟨by simp [hdiscovered], by simp [Crawler.isQueued, hqueue]⟩
      show (c.toCrawler.findPeer peer).queuedPeers = [peer]
      rw [Crawler.findPeer_of_admits hadmits, hqueue]
      rfl

theorem statInvalidEnr_enqueueEnodeUri {c : Discv5Crawler} {uri : Bytes} (h : enodePeer uri = none) :
    (c.enqueueEnodeUri uri).statInvalidEnr = c.statInvalidEnr + 1 := by
  unfold Discv5Crawler.enqueueEnodeUri
  rw [h]

theorem toNat_port {n : Nat} (h : n ≤ 65535) : (UInt16.ofNat n).toNat = n := by
  rw [UInt16.toNat_ofNat']
  exact Nat.mod_eq_of_lt (by omega)

theorem ofNat_port_eq_zero_iff {n : Nat} : UInt16.ofNat n = 0 ↔ n % 65536 = 0 := by
  rw [← UInt16.toNat_inj, UInt16.toNat_ofNat']
  rfl

theorem EnodeForm.unique {rest key host digits key' host' digits' : Bytes} (h : EnodeForm rest key host digits)
    (h' : EnodeForm rest key' host' digits') : key = key' ∧ host = host' ∧ digits = digits' := by
  obtain ⟨hkey, htail⟩ := List.append_inj (h.eq.symm.trans h'.eq) (h.key_length.trans h'.key_length.symm)
  have htail := (List.cons.inj htail).2
  have hcolon := last_split.mpr ⟨host, digits, rfl, rfl, fun hmem => colon_not_isDigit (h.digits_decimal _ hmem)⟩
  have hcolon' := last_split.mpr ⟨host', digits', rfl, rfl, fun hmem => colon_not_isDigit (h'.digits_decimal _ hmem)⟩
  rw [htail, hcolon'] at hcolon
  obtain ⟨hhost, hdigits⟩ := List.append_inj htail (Option.some.inj hcolon).symm
  exact ⟨hkey, hhost, (List.cons.inj hdigits).2⟩

theorem enodePeer_of_enodeOf {rest : Bytes} {peer : ValidatedPeer} (h : EnodeOf rest peer) :
    enodePeer (kEnodePrefix ++ rest) = some peer := by
  obtain ⟨key, host, digits, hform, hpos, hle, hnodeId, hip, hudp, htcp, hfork⟩ := h
  refine enodePeer_eq_some_iff.mpr ⟨key, host, digits, hform, ?_, ?_⟩
  · rw [Ne, ofNat_port_eq_zero_iff]
    omega
  · obtain ⟨nodeId, ip, udpPort, tcpPort, ethForkId⟩ := peer
    dsimp only at hnodeId hip hudp htcp hfork
    rw [← hnodeId, FixedBytes.load_bytes, hip, hfork, ← hudp, UInt16.ofNat_toNat,
      UInt16.toNat_inj.mp (htcp.trans hudp.symm)]

theorem enodeOf_of_enodePeer {rest : Bytes} {peer : ValidatedPeer} (h : enodePeer (kEnodePrefix ++ rest) = some peer)
    (hsmall : ¬ ∃ key host digits, EnodeForm rest key host digits ∧ 65535 < decimalValue digits ∧
      decimalValue digits % 65536 ≠ 0) :
    EnodeOf rest peer := by
  obtain ⟨key, host, digits, hform, hne, rfl⟩ := enodePeer_eq_some_iff.mp h
  rw [Ne, ofNat_port_eq_zero_iff] at hne
  have hle : decimalValue digits ≤ 65535 := by
    by_contra hlarge
    exact hsmall ⟨key, host, digits, hform, not_le.mp hlarge, hne⟩
  have hbytes : (hexBytes key).length = kNodeIdBytes := by rw [length_hexBytes, hform.key_length]
  refine ⟨key, host, digits, hform, by omega, hle, FixedBytes.bytes_load_self hbytes, rfl, toNat_port hle,
    toNat_port hle, rfl⟩

/-- **enode URIs are parsed exactly** for all strings but those of the form whose number is above 65535 and not a
multiple of 65536: these are accepted with the number reduced to sixteen bits. -/
theorem enode_uri_exact_iff (rest : Bytes) :
    EnodeExact rest ↔ ¬ ∃ key host digits, EnodeForm rest key host digits ∧ 65535 < decimalValue digits ∧
      decimalValue digits % 65536 ≠ 0 := by
  constructor
  · rintro hexact ⟨key, host, digits, hform, hlarge, hne⟩
    have haccepted := enodePeer_eq_some_iff.mpr ⟨key, host, digits, hform, mt ofNat_port_eq_zero_iff.mp hne, rfl⟩
    obtain ⟨hpeer, -⟩ := hexact (.new none []) rfl rfl
    obtain ⟨key', host', digits', hform', -, hle, -⟩ :=
      (hpeer _).mp ((queuedPeers_enqueueEnodeUri rfl rfl _).trans (by rw [haccepted]; rfl))
    obtain ⟨-, -, rfl⟩ := hform.unique hform'
    omega
  · intro hsmall c hqueue hdiscovered
    dsimp only
    rw [queuedPeers_enqueueEnodeUri hqueue hdiscovered]
    cases haccepted : enodePeer (kEnodePrefix ++ rest) with
    | none =>
        refine ⟨fun peer => ⟨nofun, fun hof => ?_⟩, fun _ => ⟨hqueue.symm, statInvalidEnr_enqueueEnodeUri haccepted⟩⟩
        rw [enodePeer_of_enodeOf hof] at haccepted
        cases haccepted
    | some accepted =>
        have hof := enodeOf_of_enodePeer haccepted hsmall
        refine ⟨fun peer => ⟨fun heq => ?_, fun hpeer => ?_⟩, fun hnone => absurd ⟨accepted, hof⟩ hnone⟩
        · rwa [← List.cons.inj heq |>.1]
        · rw [enodePeer_of_enodeOf hpeer] at haccepted
          rw [Option.some.inj haccepted]
          rfl

/-- The port 65537 is accepted as port 1. -/
theorem enode_port_wraps :
    let key := List.replicate 128 '0'.toUInt8
    let host := ascii "10.0.0.1".toList
    let digits := ascii "65537".toList
    EnodeForm (key ++ '@'.toUInt8 :: (host ++ ':'.toUInt8 :: digits)) key host digits ∧ decimalValue digits = 65537 ∧
      enodePeer (kEnodePrefix ++ (key ++ '@'.toUInt8 :: (host ++ ':'.toUInt8 :: digits))) =
        some ⟨.zero 64, host, 1, 1, none⟩ := by
  refine ⟨⟨rfl, List.length_replicate, fun c hc => ?_, by decide +kernel, by decide +kernel⟩, by
    decide +kernel, by decide +kernel⟩
  rw [List.eq_of_mem_replicate hc]
  decide

end DevP2P.Discv5
