import SubRosa.Library.MachineInt

/-!
# Big-endian bytes

The fixed-width big-endian bytes of a natural number and of a 128-bit signed
integer in two's complement, with the value the bytes denote. The two
directions are inverse to each other at every width.
-/

namespace BigEndian

open MachineInt

/-- The `w` low-order bytes of `n`, most significant first. -/
def encode : Nat → Nat → List UInt8
  | 0, _ => []
  | w + 1, n => UInt8.ofNat (n / 256 ^ w) :: encode w n

/-- The number a byte string denotes. -/
def decode : List UInt8 → Nat
  | [] => 0
  | b :: bs => b.toNat * 256 ^ bs.length + decode bs

@[simp] theorem length_encode (w n : Nat) : (encode w n).length = w := by
  induction w with
  | zero => rfl
  | succ w ih => simp [encode, ih]

theorem decode_lt (bs : List UInt8) : decode bs < 256 ^ bs.length := by
  induction bs with
  | nil => simp [decode]
  | cons b bs ih =>
    have hb : b.toNat + 1 ≤ 256 := b.toNat_lt
    have hm := Nat.mul_le_mul_right (256 ^ bs.length) hb
    simp only [decode, List.length_cons, Nat.pow_succ]
    rw [Nat.add_mul, Nat.one_mul] at hm
    omega

theorem decode_encode (w n : Nat) : decode (encode w n) = n % 256 ^ w := by
  induction w with
  | zero => simp [encode, decode, Nat.mod_one]
  | succ w ih =>
    have hs : n % 256 ^ (w + 1) = n % 256 ^ w + 256 ^ w * (n / 256 ^ w % 256) := by
      rw [Nat.pow_succ, Nat.mod_mul]
    have hb : (UInt8.ofNat (n / 256 ^ w)).toNat = n / 256 ^ w % 256 := UInt8.toNat_ofNat'
    rw [encode, decode, length_encode, ih, hb, hs, Nat.mul_comm, Nat.add_comm]

theorem encode_add_mul (w n k : Nat) : encode w (n + k * 256 ^ w) = encode w n := by
  induction w generalizing k with
  | zero => rfl
  | succ w ih =>
    have hp : k * 256 ^ (w + 1) = k * 256 * 256 ^ w := by rw [Nat.pow_succ]; ac_rfl
    have hd : (n + k * 256 * 256 ^ w) / 256 ^ w = n / 256 ^ w + k * 256 :=
      Nat.add_mul_div_right _ _ (Nat.pow_pos (by decide))
    simp only [encode, hp, hd, ih, List.cons.injEq, and_true]
    rw [← UInt8.toNat_inj]
    simp [UInt8.toNat_ofNat']

theorem encode_decode (bs : List UInt8) : encode bs.length (decode bs) = bs := by
  induction bs with
  | nil => rfl
  | cons b bs ih =>
    have hlt := decode_lt bs
    have hd : (b.toNat * 256 ^ bs.length + decode bs) / 256 ^ bs.length = b.toNat := by
      rw [Nat.add_comm, Nat.add_mul_div_right _ _ (Nat.pow_pos (by decide)), Nat.div_eq_of_lt hlt,
        Nat.zero_add]
    simp only [List.length_cons, encode, decode, hd, UInt8.ofNat_toNat]
    rw [Nat.add_comm, encode_add_mul, ih]

theorem decode_append (bs cs : List UInt8) :
    decode (bs ++ cs) = decode bs * 256 ^ cs.length + decode cs := by
  induction bs with
  | nil => simp [decode]
  | cons b bs ih =>
    rw [List.cons_append, decode, ih, decode, List.length_append, Nat.pow_add]
    ring

/-- The low byte comes last. -/
theorem encode_succ_low (w n : Nat) :
    encode (w + 1) n = encode w (n / 256) ++ [UInt8.ofNat (n % 256)] := by
  induction w with
  | zero =>
    have hlow : UInt8.ofNat n = UInt8.ofNat (n % 256) := by
      rw [← UInt8.toNat_inj]
      simp [UInt8.toNat_ofNat']
    simp [encode, hlow]
  | succ w ih =>
    have hhead : n / 256 ^ (w + 1) = n / 256 / 256 ^ w := by
      rw [Nat.pow_succ, Nat.mul_comm, Nat.div_div_eq_div_mul]
    rw [encode, ih, hhead, encode, List.cons_append]

/-! ## Two's complement -/

/-- `i128::to_be_bytes`. -/
def toBeBytes (v : I128) : List UInt8 := encode 16 (v.toInt % 2 ^ 128).toNat

/-- `i128::from_be_bytes` as an integer; it fits when there are 16 bytes. -/
def signed (bs : List UInt8) : Int :=
  if decode bs < 2 ^ 127 then (decode bs : Int) else (decode bs : Int) - 2 ^ 128

@[simp] theorem length_toBeBytes (v : I128) : (toBeBytes v).length = 16 := length_encode _ _

theorem decode_toBeBytes (v : I128) : (decode (toBeBytes v) : Int) = v.toInt % 2 ^ 128 := by
  have hm : v.toInt % 2 ^ 128 < 2 ^ 128 := Int.emod_lt_of_pos _ (by decide)
  have h0 : 0 ≤ v.toInt % 2 ^ 128 := Int.emod_nonneg _ (by decide)
  rw [toBeBytes, decode_encode, Nat.mod_eq_of_lt (by omega)]
  exact Int.toNat_of_nonneg h0

theorem signed_toBeBytes (v : I128) : signed (toBeBytes v) = v.toInt := by
  have h := decode_toBeBytes v
  have hl := v.lower
  have hu := v.upper
  unfold signed
  split <;> omega

theorem toBeBytes_injective : Function.Injective toBeBytes := by
  intro v w h
  rw [← I128.toInt_inj, ← signed_toBeBytes v, h, signed_toBeBytes]

theorem signed_fits (bs : List UInt8) (h : bs.length = 16) :
    -2 ^ 127 ≤ signed bs ∧ signed bs < 2 ^ 127 := by
  have hlt := decode_lt bs
  rw [h] at hlt
  unfold signed
  split <;> omega

/-- `i128::from_be_bytes`. -/
def fromBeBytes (bs : List UInt8) (h : bs.length = 16) : I128 :=
  ⟨signed bs, (signed_fits bs h).1, (signed_fits bs h).2⟩

@[simp] theorem toInt_fromBeBytes (bs : List UInt8) (h : bs.length = 16) :
    (fromBeBytes bs h).toInt = signed bs := rfl

theorem toBeBytes_fromBeBytes (bs : List UInt8) (h : bs.length = 16) :
    toBeBytes (fromBeBytes bs h) = bs := by
  have hlt := decode_lt bs
  rw [h] at hlt
  have hmod : (signed bs % 2 ^ 128).toNat = decode bs := by
    unfold signed
    split <;> omega
  have hencode := encode_decode bs
  rw [h] at hencode
  rw [toBeBytes]
  exact hmod ▸ hencode

end BigEndian
