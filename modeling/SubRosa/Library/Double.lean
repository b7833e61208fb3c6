import SubRosa.Library.JavaScript
import Mathlib.Data.Int.Log

/-!
# Arithmetic on doubles

An operation on finite numbers rounds its exact result to the nearest double,
a tie to the even last place, and to an infinity beyond the largest one. A
result that is an integer of at most 53 bits is exact, and one beyond `2 ^ 53`
stays beyond it.
-/

namespace JavaScript

/-- The nearest integer, of two the even one. -/
def roundHalfEven (q : ℚ) : ℤ :=
  if q - ⌊q⌋ < 1 / 2 then ⌊q⌋
  else if 1 / 2 < q - ⌊q⌋ then ⌊q⌋ + 1
  else if ⌊q⌋ % 2 = 0 then ⌊q⌋
  else ⌊q⌋ + 1

@[simp] theorem roundHalfEven_intCast (n : ℤ) : roundHalfEven n = n := by
  simp [roundHalfEven]

theorem le_roundHalfEven {n : ℤ} {q : ℚ} (h : (n : ℚ) ≤ q) : n ≤ roundHalfEven q := by
  have hfloor : n ≤ ⌊q⌋ := Int.le_floor.mpr h
  unfold roundHalfEven
  split_ifs <;> omega

namespace Number

/-- The exponent of the last place of the doubles around `q`. -/
def lastPlace (q : ℚ) : ℤ := max (Int.log 2 |q| - 52) (-1074)

/-- The double an exact result is rounded to. -/
def ofExact (q : ℚ) : Number :=
  let r : ℚ := roundHalfEven (q / 2 ^ lastPlace q) * 2 ^ lastPlace q
  if 2 ^ 1024 ≤ |r| then .infinite (q < 0) else .finite r

/-- A multiple of its last place is not rounded. -/
theorem ofExact_eq {q : ℚ} (h : ∃ m : ℤ, q = m * 2 ^ lastPlace q) (hsmall : |q| < 2 ^ 1024) :
    ofExact q = .finite q := by
  obtain ⟨m, h⟩ := h
  have hpos : (0 : ℚ) < 2 ^ lastPlace q := zpow_pos (by norm_num) _
  have hm : q / 2 ^ lastPlace q = m := by
    rw [div_eq_iff hpos.ne']
    exact h
  rw [ofExact, hm, roundHalfEven_intCast, ← h, if_neg (not_le.mpr hsmall)]

theorem lastPlace_nonpos {n : ℤ} (h : |n| < 2 ^ 53) : lastPlace n ≤ 0 := by
  have hlog : Int.log 2 |(n : ℚ)| < 53 := by
    by_cases hn : n = 0
    · rw [hn, Int.cast_zero, abs_zero, Int.log_zero_right]
      norm_num
    · have hpos : (0 : ℚ) < |(n : ℚ)| := abs_pos.mpr (Int.cast_ne_zero.mpr hn)
      rw [← Int.lt_zpow_iff_log_lt (by norm_num) hpos]
      exact_mod_cast h
  unfold lastPlace
  omega

theorem lastPlace_pow {q : ℚ} (h : |q| = 2 ^ 53) : lastPlace q = 1 := by
  have hlog : Int.log 2 |q| = 53 := by
    rw [h]
    exact_mod_cast Int.log_zpow (R := ℚ) (b := 2) (by norm_num) 53
  rw [lastPlace, hlog]
  norm_num

/-- An integer of at most 53 bits is a double. -/
theorem ofExact_intCast {n : ℤ} (h : |n| ≤ 2 ^ 53) : ofExact n = .finite n := by
  have hsmall : |(n : ℚ)| < 2 ^ 1024 := by
    have hcast : |(n : ℚ)| ≤ 2 ^ 53 := by exact_mod_cast h
    exact lt_of_le_of_lt hcast (pow_lt_pow_right₀ (by norm_num) (by norm_num))
  rcases lt_or_eq_of_le h with hlt | heq
  · -- the last place is at most one: the integer is a multiple of it
    obtain ⟨k, hk⟩ := Int.exists_eq_neg_ofNat (lastPlace_nonpos hlt)
    refine ofExact_eq ⟨n * 2 ^ k, ?_⟩ hsmall
    rw [hk, zpow_neg, zpow_natCast, Int.cast_mul, Int.cast_pow, Int.cast_ofNat]
    exact (mul_inv_cancel_right₀ (by positivity) _).symm
  · have hplace : lastPlace n = 1 := lastPlace_pow (by exact_mod_cast heq)
    rcases abs_eq (by norm_num) |>.mp heq with rfl | rfl
    · refine ofExact_eq ⟨2 ^ 52, ?_⟩ hsmall
      rw [hplace]
      norm_num
    · refine ofExact_eq ⟨-2 ^ 52, ?_⟩ hsmall
      rw [hplace]
      norm_num

theorem lastPlace_large {q : ℚ} (h : 2 ^ 53 ≤ q) :
    1 ≤ lastPlace q ∧ 2 ^ 52 * 2 ^ lastPlace q ≤ q := by
  have hpos : 0 < q := lt_of_lt_of_le (by norm_num) h
  have hlog : 53 ≤ Int.log 2 |q| := by
    rw [abs_of_pos hpos, ← Int.zpow_le_iff_le_log (by norm_num) hpos]
    exact_mod_cast h
  have hplace : lastPlace q = Int.log 2 |q| - 52 := by
    unfold lastPlace
    omega
  refine ⟨by omega, ?_⟩
  have hself : (2 : ℚ) ^ Int.log 2 |q| ≤ q := by
    rw [abs_of_pos hpos]
    exact_mod_cast Int.zpow_log_le_self (b := 2) (by norm_num) hpos
  calc (2 : ℚ) ^ 52 * 2 ^ lastPlace q = 2 ^ Int.log 2 |q| := by
        rw [hplace, ← zpow_natCast, ← zpow_add₀ (by norm_num)]
        norm_num
    _ ≤ q := hself

/-- Rounding does not cross `2 ^ 53`. -/
theorem ofExact_large {q : ℚ} (h : 2 ^ 53 ≤ q) :
    ofExact q = .infinite false ∨ ∃ r : ℚ, ofExact q = .finite r ∧ 2 ^ 53 ≤ r := by
  obtain ⟨hplace, hq⟩ := lastPlace_large h
  have hpos : (0 : ℚ) < 2 ^ lastPlace q := zpow_pos (by norm_num) _
  have hmantissa : (2 : ℤ) ^ 52 ≤ roundHalfEven (q / 2 ^ lastPlace q) := by
    refine le_roundHalfEven ?_
    rw [le_div_iff₀ hpos]
    exact_mod_cast hq
  have hdouble : (2 : ℚ) ≤ 2 ^ lastPlace q := by
    calc (2 : ℚ) = 2 ^ (1 : ℤ) := by norm_num
      _ ≤ 2 ^ lastPlace q := zpow_le_zpow_right₀ (by norm_num) hplace
  have hmantissa : (2 : ℚ) ^ 52 ≤ (roundHalfEven (q / 2 ^ lastPlace q) : ℚ) := by
    exact_mod_cast hmantissa
  have hnonneg : ¬ q < 0 := by linarith
  unfold ofExact
  dsimp only
  split
  · simp [hnonneg]
  · refine Or.inr ⟨_, rfl, ?_⟩
    calc (2 : ℚ) ^ 53 = 2 ^ 52 * 2 := by norm_num
      _ ≤ (roundHalfEven (q / 2 ^ lastPlace q) : ℚ) * 2 ^ lastPlace q :=
        mul_le_mul hmantissa hdouble (by norm_num) (by linarith)

/-! ## The operations

`none` is `NaN`. -/

/-- `Number.isSafeInteger`. -/
def isSafe (x : Option Number) : Bool := x.any isSafeInteger

/-- `x < y`. -/
def less : Option Number → Option Number → Bool
  | some x, some y => x.lt y
  | _, _ => false

/-- `x <= y`. -/
def lessEq : Option Number → Option Number → Bool
  | some x, some y => !y.lt x
  | _, _ => false

/-- `String(x)`. -/
def text (engine : Engine) : Option Number → String
  | some x => engine.numberToString x
  | none => "NaN"

def add : Option Number → Option Number → Option Number
  | some (.finite p), some (.finite q) => some (ofExact (p + q))
  | some (.finite _), some (.infinite b) => some (.infinite b)
  | some (.infinite a), some (.finite _) => some (.infinite a)
  | some (.infinite a), some (.infinite b) => if a = b then some (.infinite a) else none
  | _, _ => none

def neg : Number → Number
  | .finite q => .finite (-q)
  | .infinite a => .infinite !a

def sub (x y : Option Number) : Option Number := add x (y.map neg)

def isNegative : Number → Bool
  | .finite q => q < 0
  | .infinite a => a

def mul : Option Number → Option Number → Option Number
  | some (.finite p), some (.finite q) => some (ofExact (p * q))
  | some x, some y =>
      if x = 0 ∨ y = 0 then none else some (.infinite (x.isNegative != y.isNegative))
  | _, _ => none

/-! ## Safe integers -/

theorem isSafeInteger_intCast (n : ℤ) :
    (Number.finite n).isSafeInteger = true ↔ |n| ≤ 2 ^ 53 - 1 := by
  simp only [isSafeInteger, Rat.den_intCast, Rat.num_intCast, true_and, decide_eq_true_eq]
  rw [Int.abs_eq_natAbs]
  omega

theorem isSafe_iff {x : Option Number} :
    isSafe x = true ↔ ∃ n : ℤ, x = some (.finite n) ∧ |n| ≤ 2 ^ 53 - 1 := by
  constructor
  · intro h
    obtain ⟨x, rfl, hsafe⟩ := Option.any_eq_true .. |>.mp h
    cases x with
    | infinite a => cases hsafe
    | finite q =>
      have hint : (q.num : ℚ) = q := by
        simp only [isSafeInteger, decide_eq_true_eq] at hsafe
        exact Rat.coe_int_num_of_den_eq_one hsafe.1
      rw [← hint] at hsafe ⊢
      exact ⟨q.num, rfl, (isSafeInteger_intCast q.num).mp hsafe⟩
  · rintro ⟨n, rfl, hn⟩
    exact (isSafeInteger_intCast n).mpr hn

/-- A result at or beyond `2 ^ 53` is not safe. -/
theorem isSafe_large {q : ℚ} (h : 2 ^ 53 ≤ q) : isSafe (some (ofExact q)) = false := by
  rcases ofExact_large h with hinf | ⟨r, hr, hlarge⟩
  · rw [hinf]
    rfl
  · rw [hr, ← Bool.not_eq_true, isSafe_iff]
    rintro ⟨n, hn, hsmall⟩
    obtain rfl : r = n := by simpa using hn
    have hsmall : (n : ℚ) ≤ 2 ^ 53 - 1 := by exact_mod_cast (le_abs_self n).trans hsmall
    linarith

end Number

end JavaScript
