import SubRosa.Contract.Types
import SubRosa.Library.JavaScript

/-!
# Bytes and commitments in the SDK

`commitment.ts`: the byte encoding of an `i128`, the preimage of a first
generation bid and the hex notation of bytes. A `Uint8Array` is a list of
bytes, a `bigint` an integer.
-/

namespace SubRosa.Sdk

open BigEndian MachineInt JavaScript

def valueBytes : Nat := 16
def nonceBytes : Nat := 32
def preimageBytes : Nat := valueBytes + nonceBytes
def i128Max : Int := 2 ^ 127 - 1
def i128Min : Int := -2 ^ 127
def two128 : Int := 2 ^ 128

/-- `for (let i = n - 1; i >= 0; i--) { out[i] = u & 0xff; u >>= 8 }`. -/
def lowBytes : Nat → Nat → Bytes
  | 0, _ => []
  | n + 1, u => lowBytes n (u / 256) ++ [UInt8.ofNat (u % 256)]

def i128ToBeBytes (value : Int) : Except Thrown Bytes :=
  if value < i128Min ∨ i128Max < value then
    .error (.rangeError s!"value {value} out of i128 range")
  else .ok (lowBytes valueBytes (value % two128).toNat)

/-- `u = (u << 8) | b` over the bytes. -/
def foldBytes (bytes : Bytes) : Nat := bytes.foldl (fun u b => u * 256 + b.toNat) 0

def beBytesToI128 (bytes : Bytes) : Except Thrown Int :=
  if bytes.length ≠ valueBytes then
    .error (.error s!"expected {valueBytes} bytes, got {bytes.length}")
  else
    let u : Int := foldBytes bytes
    .ok (if 2 ^ 127 ≤ u then u - two128 else u)

def encodeBidPreimage (value : Int) (nonce : Bytes) : Except Thrown Bytes :=
  if nonce.length ≠ nonceBytes then
    .error (.error s!"nonce must be {nonceBytes} bytes, got {nonce.length}")
  else do
    return (← i128ToBeBytes value) ++ nonce

def commitment (sha256 : Bytes → BytesN 32) (value : Int) (nonce : Bytes) :
    Except Thrown Bytes := do
  return (sha256 (← encodeBidPreimage value nonce)).val

/-! ## Hex -/

def hexDigit (n : Nat) : Char := "0123456789abcdef".toList.getD n '0'

/-- `b.toString(16).padStart(2, "0")`. -/
def hexByte (b : UInt8) : List Char := [hexDigit (b.toNat / 16), hexDigit (b.toNat % 16)]

def toHex (bytes : Bytes) : String := String.ofList (bytes.flatMap hexByte)

def isHexDigit (c : Char) : Bool := (digitIn? 16 c).isSome

/-- A text that matches `/^[0-9a-f]*$/i`. -/
def isHexText (s : String) : Bool := s.toList.all isHexDigit

/-- `parseInt(pair, 16)` for each pair of digits. -/
def parsePairs : List Char → Bytes
  | c :: d :: cs =>
    UInt8.ofNat ((digitIn? 16 c).getD 0 * 16 + (digitIn? 16 d).getD 0) :: parsePairs cs
  | _ => []

/-- A text that matches `/^0x/i`. -/
def hasHexPrefix (s : String) : Bool :=
  match s.toList with
  | '0' :: c :: _ => c = 'x' ∨ c = 'X'
  | _ => false

def fromHexText (hex : String) : Except Thrown Bytes :=
  let clean := if hasHexPrefix hex then String.ofList (hex.toList.drop 2) else hex
  if (codeUnits clean).length % 2 ≠ 0 then .error (.error "odd hex length")
  else if !isHexText clean then .error (.error "invalid hex characters")
  else .ok (parsePairs clean.toList)

/-! ## Hex text and bytes -/

theorem digitIn_hexDigit : ∀ n < 16, digitIn? 16 (hexDigit n) = some n := by decide

theorem hexDigit_of_code : ∀ n < 128, ∀ d, digitIn? 16 (Char.ofNat n) = some d →
    d < 16 ∧ hexDigit d = (Char.ofNat n).toLower := by decide +kernel

theorem digitIn_code {c : Char} {d : Nat} (h : digitIn? 16 c = some d) : c.toNat < 128 := by
  by_contra hlarge
  have hnone : digitIn? 16 c = none := by
    have hnine : ¬ c ≤ '9' := fun hle => hlarge (Nat.lt_of_le_of_lt hle (by decide))
    have hf : ¬ c ≤ 'f' := fun hle => hlarge (Nat.lt_of_le_of_lt hle (by decide))
    have hF : ¬ c ≤ 'F' := fun hle => hlarge (Nat.lt_of_le_of_lt hle (by decide))
    simp [digitIn?, hnine, hf, hF]
  rw [hnone] at h
  cases h

/-- A hex digit stands for a value below 16, whose own digit is the lower case of it. -/
theorem hexDigit_digitIn {c : Char} {d : Nat} (h : digitIn? 16 c = some d) :
    d < 16 ∧ hexDigit d = c.toLower := by
  have hc : Char.ofNat c.toNat = c := Char.ofNat_toNat c
  have hfact := hexDigit_of_code c.toNat (digitIn_code h) d
  rw [hc] at hfact
  exact hfact h

theorem parsePairs_hexByte (bytes : Bytes) : parsePairs (bytes.flatMap hexByte) = bytes := by
  induction bytes with
  | nil => rfl
  | cons b bytes ih =>
    have hb : b.toNat < 256 := b.toNat_lt
    have hhigh := digitIn_hexDigit (b.toNat / 16) (by omega)
    have hlow := digitIn_hexDigit (b.toNat % 16) (by omega)
    have hbyte : UInt8.ofNat (b.toNat / 16 * 16 + b.toNat % 16) = b := by
      rw [Nat.div_add_mod' b.toNat 16, UInt8.ofNat_toNat]
    rw [List.flatMap_cons, hexByte, List.cons_append, List.cons_append, List.nil_append, parsePairs,
      hhigh, hlow, Option.getD_some, Option.getD_some, hbyte, ih]

/-- Writing back the bytes of a hex text gives the text in lower case. -/
theorem hexByte_parsePairs {cs : List Char} (hhex : ∀ c ∈ cs, isHexDigit c = true)
    (heven : cs.length % 2 = 0) : (parsePairs cs).flatMap hexByte = cs.map Char.toLower := by
  induction cs using parsePairs.induct with
  | case1 c d cs ih =>
    obtain ⟨m, hm⟩ := Option.isSome_iff_exists.mp (hhex c (by simp))
    obtain ⟨n, hn⟩ := Option.isSome_iff_exists.mp (hhex d (by simp))
    obtain ⟨hm16, hc⟩ := hexDigit_digitIn hm
    obtain ⟨hn16, hd⟩ := hexDigit_digitIn hn
    have hbyte : hexByte (UInt8.ofNat (m * 16 + n)) = [c.toLower, d.toLower] := by
      have hvalue : (UInt8.ofNat (m * 16 + n)).toNat = m * 16 + n :=
        UInt8.toNat_ofNat_of_lt' (by show m * 16 + n < 256; omega)
      rw [hexByte, hvalue, show (m * 16 + n) / 16 = m by omega, show (m * 16 + n) % 16 = n by omega,
        hc, hd]
    have hrest := ih (fun e he => hhex e (by simp [he])) (by
      simp only [List.length_cons] at heven
      omega)
    rw [parsePairs, hm, hn, Option.getD_some, Option.getD_some, List.flatMap_cons, hbyte, hrest]
    rfl
  | case2 cs hshort =>
    cases cs with
    | nil => rfl
    | cons c cs =>
      cases cs with
      | nil => simp at heven
      | cons d cs => exact absurd rfl (hshort c d cs)

theorem isHexText_iff {s : String} : isHexText s = true ↔ ∀ c ∈ s.toList, isHexDigit c = true :=
  List.all_eq_true

/-- The characters of a hex text are its code units. -/
theorem codeUnits_hex {s : String} (h : isHexText s = true) : codeUnits s = s.toList := by
  have hunit : ∀ c ∈ s.toList, (if c.toNat < 0x10000 then [c] else ['\uFFFD', '\uFFFD']) = [c] := by
    intro c hc
    obtain ⟨d, hd⟩ := Option.isSome_iff_exists.mp (isHexText_iff.mp h c hc)
    exact if_pos (Nat.lt_trans (digitIn_code hd) (by decide))
  rw [codeUnits, List.flatMap_congr hunit]
  simp

theorem hasHexPrefix_hex {s : String} (h : isHexText s = true) : hasHexPrefix s = false := by
  have hdigits := isHexText_iff.mp h
  unfold hasHexPrefix
  generalize s.toList = cs at hdigits
  split
  · next c cs =>
    have hc : isHexDigit c = true := hdigits c (by simp)
    have hx : isHexDigit 'x' = false := by decide
    have hX : isHexDigit 'X' = false := by decide
    have hlower : c ≠ 'x' := fun heq => by rw [heq, hx] at hc; cases hc
    have hupper : c ≠ 'X' := fun heq => by rw [heq, hX] at hc; cases hc
    simp [hlower, hupper]
  · rfl

theorem fromHexText_hex {s : String} (h : isHexText s = true)
    (heven : (codeUnits s).length % 2 = 0) :
    fromHexText s = .ok (parsePairs s.toList) := by
  simp [fromHexText, hasHexPrefix_hex h, h, heven]

/-- Comparing with the text in lower case is comparing with the bytes it denotes. -/
theorem toHex_eq_toLower {s : String} (h : isHexText s = true)
    (heven : (codeUnits s).length % 2 = 0) {bytes : Bytes} :
    toHex bytes = s.toLower ↔ fromHexText s = .ok bytes := by
  have hback : (parsePairs s.toList).flatMap hexByte = s.toLower.toList := by
    rw [codeUnits_hex h] at heven
    rw [hexByte_parsePairs (isHexText_iff.mp h) heven, show s.toLower = s.map Char.toLower from rfl,
      String.toList_map]
  rw [fromHexText_hex h heven, Except.ok.injEq, toHex]
  constructor
  · intro heq
    have hlist : bytes.flatMap hexByte = s.toLower.toList := by rw [← heq, String.toList_ofList]
    rw [← parsePairs_hexByte bytes, hlist, ← hback, parsePairs_hexByte]
  · rintro rfl
    rw [hback, String.ofList_toList]

theorem isHexDigit_hexDigit : ∀ n < 16, isHexDigit (hexDigit n) = true := by decide

theorem isHexText_toHex (bytes : Bytes) : isHexText (toHex bytes) = true := by
  rw [isHexText_iff, toHex, String.toList_ofList]
  intro c hc
  obtain ⟨b, -, hb⟩ := List.mem_flatMap.mp hc
  have hlt : b.toNat < 256 := b.toNat_lt
  rcases List.mem_pair.mp hb with rfl | rfl
  · exact isHexDigit_hexDigit _ (by omega)
  · exact isHexDigit_hexDigit _ (by omega)

theorem length_toHex (bytes : Bytes) : (codeUnits (toHex bytes)).length = bytes.length * 2 := by
  rw [codeUnits_hex (isHexText_toHex bytes), toHex, String.toList_ofList]
  induction bytes with
  | nil => rfl
  | cons b bytes ih =>
    rw [List.flatMap_cons, List.length_append, ih, List.length_cons, hexByte]
    simp only [List.length_cons, List.length_nil]
    omega

theorem fromHexText_toHex (bytes : Bytes) : fromHexText (toHex bytes) = .ok bytes := by
  rw [fromHexText_hex (isHexText_toHex bytes) (by rw [length_toHex]; omega), toHex,
    String.toList_ofList, parsePairs_hexByte]

/-- A hex text is its own lower case. -/
theorem toLower_toHex (bytes : Bytes) : (toHex bytes).toLower = toHex bytes :=
  ((toHex_eq_toLower (isHexText_toHex bytes) (by rw [length_toHex]; omega)).mpr
    (fromHexText_toHex bytes)).symm

/-! ## The two byte encodings agree with the contract's -/

theorem lowBytes_eq_encode (n u : Nat) : lowBytes n u = encode n u := by
  induction n generalizing u with
  | zero => rfl
  | succ n ih =>
    rw [lowBytes, ih]
    exact (encode_succ_low n u).symm

theorem foldBytes_eq_decode (bytes : Bytes) : foldBytes bytes = decode bytes := by
  induction bytes using List.reverseRecOn with
  | nil => rfl
  | append_singleton bytes b ih =>
    rw [foldBytes, List.foldl_append, decode_append, ← ih]
    simp [foldBytes, decode]

theorem i128ToBeBytes_toInt (v : I128) : i128ToBeBytes v.toInt = .ok (toBeBytes v) := by
  have hl := v.lower
  have hu := v.upper
  have hrange : ¬ (v.toInt < i128Min ∨ i128Max < v.toInt) := by
    unfold i128Min i128Max
    omega
  rw [i128ToBeBytes, if_neg hrange, lowBytes_eq_encode]
  rfl

theorem i128ToBeBytes_eq_ok {value : Int} {bytes : Bytes} :
    i128ToBeBytes value = .ok bytes ↔ ∃ v : I128, v.toInt = value ∧ bytes = toBeBytes v := by
  constructor
  · intro h
    unfold i128ToBeBytes at h
    split at h
    · cases h
    · next hrange =>
      unfold i128Min i128Max at hrange
      obtain ⟨v, hv⟩ : ∃ v : I128, v.toInt = value := ⟨⟨value, by omega, by omega⟩, rfl⟩
      refine ⟨v, hv, ?_⟩
      subst hv
      have hv := i128ToBeBytes_toInt v
      unfold i128ToBeBytes at hv
      rw [if_neg (by unfold i128Min i128Max; omega)] at hv
      exact (Except.ok.inj h).symm.trans (Except.ok.inj hv)
  · rintro ⟨v, rfl, rfl⟩
    exact i128ToBeBytes_toInt v

theorem beBytesToI128_ok (bytes : Bytes) (h : bytes.length = 16) :
    beBytesToI128 bytes = .ok (fromBeBytes bytes h).toInt := by
  have hlength : ¬ bytes.length ≠ valueBytes := not_not.mpr h
  rw [beBytesToI128, if_neg hlength, foldBytes_eq_decode, toInt_fromBeBytes, signed]
  refine congrArg Except.ok ?_
  unfold two128
  split <;> split <;> omega

end SubRosa.Sdk
