import SubRosa.Library.Base32
import SubRosa.Library.BigEndian
import SubRosa.Sdk.Export

/-!
# The texts of addresses

A version byte, the 32 bytes of the key or the contract and a checksum, in base
32. The version byte decides the first letter.
-/

namespace SubRosa.Sdk

/-- One byte of the cyclic redundancy check with the polynomial `0x1021`. -/
def crcByte (crc : BitVec 16) (b : UInt8) : BitVec 16 :=
  (List.range 8).foldl (fun c _ => if c.msb then (c <<< 1) ^^^ 0x1021#16 else c <<< 1)
    (crc ^^^ (b.toBitVec.setWidth 16 <<< 8))

def crc16 (bytes : Bytes) : BitVec 16 := bytes.foldl crcByte 0

/-- The checksum with its low byte first. -/
def checksum (bytes : Bytes) : Nat :=
  (crc16 bytes).toNat % 256 * 256 + (crc16 bytes).toNat / 256

/-- The version byte and the key as one number. -/
def versioned : Address → Nat
  | .account key => 48 * 2 ^ 256 + key.toNat
  | .contract id => 16 * 2 ^ 256 + id.toNat

def strkeyNumber (a : Address) : Nat :=
  versioned a * 2 ^ 16 + checksum (BigEndian.encode 33 (versioned a))

def strkeyText (a : Address) : String := Base32.encode 56 (strkeyNumber a)

@[simp] theorem versioned_account (key : BitVec 256) :
    versioned (.account key) = 48 * 2 ^ 256 + key.toNat := rfl

@[simp] theorem versioned_contract (id : BitVec 256) :
    versioned (.contract id) = 16 * 2 ^ 256 + id.toNat := rfl

theorem checksum_lt (bytes : Bytes) : checksum bytes < 2 ^ 16 := by
  have hlt := (crc16 bytes).isLt
  unfold checksum
  omega

theorem versioned_lt (a : Address) : versioned a < 2 ^ 8 * 2 ^ 256 := by
  cases a with
  | account key =>
    have hlt := key.isLt
    rw [versioned_account]
    omega
  | contract id =>
    have hlt := id.isLt
    rw [versioned_contract]
    omega

theorem versioned_injective : Function.Injective versioned := by
  intro a b h
  cases a with
  | account key =>
    have hkey := key.isLt
    cases b with
    | account key' =>
      rw [BitVec.eq_of_toNat_eq (Nat.add_left_cancel h)]
    | contract id =>
      have hid := id.isLt
      rw [versioned_account, versioned_contract] at h
      omega
  | contract id =>
    have hid := id.isLt
    cases b with
    | account key =>
      have hkey := key.isLt
      rw [versioned_account, versioned_contract] at h
      omega
    | contract id' =>
      rw [BitVec.eq_of_toNat_eq (Nat.add_left_cancel h)]

theorem strkeyNumber_lt (a : Address) : strkeyNumber a < 32 ^ 56 := by
  have hversioned := versioned_lt a
  have hsum := checksum_lt (BigEndian.encode 33 (versioned a))
  have hpow : (32 : Nat) ^ 56 = 2 ^ 8 * 2 ^ 256 * 2 ^ 16 := by norm_num
  unfold strkeyNumber
  omega

theorem strkeyText_injective : Function.Injective strkeyText := by
  intro a b h
  have hnumber := Base32.encode_inj (strkeyNumber_lt a) (strkeyNumber_lt b) h
  have ha := checksum_lt (BigEndian.encode 33 (versioned a))
  have hb := checksum_lt (BigEndian.encode 33 (versioned b))
  unfold strkeyNumber at hnumber
  exact versioned_injective (by omega)

/-- The first letter shows the upper bits of the version byte. -/
theorem strkeyText_head (a : Address) : (strkeyText a).toList.head? =
    some (Base32.letter (Fin.ofNat 32 (versioned a / (2 ^ 256 * 8)))) := by
  have hsum := checksum_lt (BigEndian.encode 33 (versioned a))
  have hpow : (32 : Nat) ^ 55 = 2 ^ 16 * (2 ^ 256 * 2 ^ 3) := by norm_num
  have hquotient : strkeyNumber a / 32 ^ 55 = versioned a / (2 ^ 256 * 8) := by
    rw [hpow, ← Nat.div_div_eq_div_mul]
    congr 1
    unfold strkeyNumber
    omega
  rw [strkeyText, Base32.head_encode, hquotient]

def stellarStrkey : Strkey where
  encode := strkeyText
  injective := strkeyText_injective
  account key := by
    have hlt := key.isLt
    have hquotient : versioned (.account key) / (2 ^ 256 * 8) = 6 := by
      rw [versioned_account]
      omega
    rw [strkeyText_head, hquotient]
    rfl
  contract id := by
    have hlt := id.isLt
    have hquotient : versioned (.contract id) / (2 ^ 256 * 8) = 2 := by
      rw [versioned_contract]
      omega
    rw [strkeyText_head, hquotient]
    rfl

end SubRosa.Sdk
