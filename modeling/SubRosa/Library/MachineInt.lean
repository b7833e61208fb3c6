import Mathlib.Tactic

/-!
# Fixed-width integers

`UInt64` comes from core; here are the saturating and checked operations on
it, each with the value it computes over `Nat`. `I128` is the signed 128-bit
integer as a bounded `Int`, ordered as the integers are.
-/

namespace MachineInt

/-! ## Unsigned 64 bits -/

def saturatingAdd (a b : UInt64) : UInt64 := UInt64.ofNat (min (a.toNat + b.toNat) (2 ^ 64 - 1))

def saturatingMul (a b : UInt64) : UInt64 := UInt64.ofNat (min (a.toNat * b.toNat) (2 ^ 64 - 1))

def saturatingSub (a b : UInt64) : UInt64 := UInt64.ofNat (a.toNat - b.toNat)

def checkedAdd (a b : UInt64) : Option UInt64 :=
  if a.toNat + b.toNat < 2 ^ 64 then some (a + b) else none

def checkedSub (a b : UInt64) : Option UInt64 :=
  if b.toNat ≤ a.toNat then some (a - b) else none

theorem toNat_ofNat_min (n : Nat) :
    (UInt64.ofNat (min n (2 ^ 64 - 1))).toNat = min n (2 ^ 64 - 1) :=
  UInt64.toNat_ofNat_of_lt' (by show _ < 2 ^ 64; omega)

@[simp] theorem saturatingAdd_toNat (a b : UInt64) :
    (saturatingAdd a b).toNat = min (a.toNat + b.toNat) (2 ^ 64 - 1) := toNat_ofNat_min _

@[simp] theorem saturatingMul_toNat (a b : UInt64) :
    (saturatingMul a b).toNat = min (a.toNat * b.toNat) (2 ^ 64 - 1) := toNat_ofNat_min _

@[simp] theorem saturatingSub_toNat (a b : UInt64) :
    (saturatingSub a b).toNat = a.toNat - b.toNat :=
  UInt64.toNat_ofNat_of_lt' (by have := a.toNat_lt; show _ < 2 ^ 64; omega)

theorem checkedAdd_eq_some {a b c : UInt64} :
    checkedAdd a b = some c ↔ c.toNat = a.toNat + b.toNat := by
  unfold checkedAdd
  have hc := c.toNat_lt
  split
  · next h =>
    have hab : (a + b).toNat = a.toNat + b.toNat := by
      rw [UInt64.toNat_add, Nat.mod_eq_of_lt h]
    rw [Option.some_inj, ← UInt64.toNat_inj, hab]
    exact eq_comm
  · constructor
    · intro h; cases h
    · intro h; omega

theorem checkedAdd_eq_none {a b : UInt64} :
    checkedAdd a b = none ↔ 2 ^ 64 ≤ a.toNat + b.toNat := by
  unfold checkedAdd
  split <;> simp <;> omega

/-! ## Signed 128 bits -/

/-- A signed 128-bit integer. -/
@[ext] structure I128 where
  toInt : Int
  lower : -2 ^ 127 ≤ toInt
  upper : toInt < 2 ^ 127
  deriving DecidableEq

namespace I128

instance : LE I128 := ⟨fun a b => a.toInt ≤ b.toInt⟩
instance : LT I128 := ⟨fun a b => a.toInt < b.toInt⟩
instance : Zero I128 := ⟨⟨0, by decide, by decide⟩⟩
instance (a b : I128) : Decidable (a ≤ b) := inferInstanceAs (Decidable (a.toInt ≤ b.toInt))
instance (a b : I128) : Decidable (a < b) := inferInstanceAs (Decidable (a.toInt < b.toInt))

theorem le_def (a b : I128) : a ≤ b ↔ a.toInt ≤ b.toInt := Iff.rfl
theorem lt_def (a b : I128) : a < b ↔ a.toInt < b.toInt := Iff.rfl
@[simp] theorem toInt_zero : (0 : I128).toInt = 0 := rfl

theorem toInt_inj {a b : I128} : a.toInt = b.toInt ↔ a = b := I128.ext_iff.symm

/-- The value of an integer that fits. -/
def ofInt? (n : Int) : Option I128 :=
  if h : -2 ^ 127 ≤ n ∧ n < 2 ^ 127 then some ⟨n, h.1, h.2⟩ else none

/-- Subtraction with overflow checks on. -/
def checkedSub (a b : I128) : Option I128 := ofInt? (a.toInt - b.toInt)

theorem ofInt?_eq_some {n : Int} {a : I128} : ofInt? n = some a ↔ a.toInt = n := by
  have := a.lower
  have := a.upper
  unfold ofInt?
  split
  · rw [Option.some_inj, I128.ext_iff]; exact eq_comm
  · constructor
    · intro h; cases h
    · intro h; omega

theorem checkedSub_eq_some {a b c : I128} : checkedSub a b = some c ↔ c.toInt = a.toInt - b.toInt :=
  ofInt?_eq_some

/-- The difference of two values that are not negative always fits. -/
theorem checkedSub_of_nonneg {a b : I128} (ha : 0 ≤ a.toInt) (hb : 0 ≤ b.toInt) :
    ∃ c, checkedSub a b = some c ∧ c.toInt = a.toInt - b.toInt := by
  have := a.upper
  have := b.upper
  exact ⟨⟨a.toInt - b.toInt, by omega, by omega⟩, checkedSub_eq_some.mpr rfl, rfl⟩

end I128

end MachineInt
