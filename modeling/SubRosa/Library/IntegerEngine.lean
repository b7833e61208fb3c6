import SubRosa.Library.DecimalText
import SubRosa.Library.JsonText

/-!
# An engine of integers

An engine that reads and writes decimal integers as the language does, for
samples. Every number it reads is one it writes.
-/

namespace JavaScript

def integerEngine : Engine where
  numberToString n := toString n.toInt
  stringToNumber s := (decimalText? s).map fun n : ℤ => .finite n
  inherits _ _ := false
  message _ := ""

/-- No number but zero is written with a leading zero. -/
theorem isUnsigned_toDigits (n : Nat) : isUnsigned (Nat.toDigits 10 n) = true := by
  have hdigits := digits_toDigits n
  have htake : (Nat.toDigits 10 n).takeWhile isDecimalDigit = Nat.toDigits 10 n :=
    List.takeWhile_eq_self_iff.mpr hdigits.2
  have hdrop : (Nat.toDigits 10 n).dropWhile isDecimalDigit = [] :=
    List.dropWhile_eq_nil_iff.mpr hdigits.2
  rw [isUnsigned, htake, hdrop]
  simp only [Bool.and_eq_true, Bool.or_eq_true, decide_eq_true_eq, isDigits, List.all_eq_true]
  exact ⟨⟨hdigits, toDigits_head n⟩, rfl⟩

theorem isNumeral_unsigned {cs : List Char} (h : isUnsigned cs = true) : isNumeral cs = true := by
  unfold isNumeral
  split
  · cases h
  · exact h

/-- The decimal of an integer is a numeral and stands for it. -/
theorem decimal_intCast (n : ℤ) :
    isNumeral (toString n).toList = true ∧ decimalText? (toString n) = some n := by
  cases n with
  | ofNat n =>
    have htext : (toString (Int.ofNat n)).toList = Nat.toDigits 10 n := Nat.toList_repr
    have hdigits := digits_toDigits n
    refine ⟨by rw [htext]; exact isNumeral_unsigned (isUnsigned_toDigits n), ?_⟩
    unfold decimalText?
    rw [htext]
    split
    · next h =>
      rw [h] at hdigits
      exact absurd (hdigits.2 '-' List.mem_cons_self) (by decide)
    · rw [digits?_digits hdigits, digitsValue_toDigits]
      rfl
  | negSucc n =>
    have htext : (toString (Int.negSucc n)).toList = '-' :: Nat.toDigits 10 (n + 1) := by
      rw [← Nat.toList_repr]
      exact String.toList_append
    refine ⟨by rw [htext]; exact isUnsigned_toDigits (n + 1), ?_⟩
    unfold decimalText?
    rw [htext]
    split
    · next h =>
      rw [← List.tail_eq_of_cons_eq h, digits?_digits (digits_toDigits (n + 1)),
        digitsValue_toDigits]
      rfl
    · next h => exact absurd rfl (h _)

/-- `BigInt` reads the decimal of an integer back. -/
theorem bigIntText_intCast (n : ℤ) : bigIntText? (toString n) = some n := by
  cases n with
  | ofNat n =>
    have htext : (toString (Int.ofNat n)).toList = Nat.toDigits 10 n := Nat.toList_repr
    rw [bigIntText_digits (by rw [htext]; exact digits_toDigits n), htext, digitsValue_toDigits]
    rfl
  | negSucc n =>
    have htext : (toString (Int.negSucc n)).toList = '-' :: Nat.toDigits 10 (n + 1) := by
      rw [← Nat.toList_repr]
      exact String.toList_append
    have htrim : trim ('-' :: Nat.toDigits 10 (n + 1)) = '-' :: Nat.toDigits 10 (n + 1) := by
      refine trim_self fun c hc => ?_
      rcases List.mem_cons.mp hc with rfl | hc
      · decide
      · exact digit_not_white ((digits_toDigits (n + 1)).2 c hc)
    unfold bigIntText?
    rw [htext, htrim]
    simp only [digits?_digits (digits_toDigits (n + 1)), digitsValue_toDigits]
    rfl

theorem integerEngine_prints (n : ℤ) : integerEngine.Prints (.finite n) := by
  have htext : integerEngine.numberToString (.finite n) = toString n :=
    congrArg toString (Rat.num_intCast n)
  obtain ⟨hform, hvalue⟩ := decimal_intCast n
  refine ⟨by rw [htext]; exact hform, ?_⟩
  have hread : ∀ s, integerEngine.stringToNumber s =
      (decimalText? s).map fun k : ℤ => Number.finite k := fun _ => rfl
  rw [htext, hread, hvalue]
  rfl

theorem integerEngine_prints_read {s : String} {n : Number}
    (h : integerEngine.stringToNumber s = some n) : integerEngine.Prints n := by
  obtain ⟨k, -, rfl⟩ := Option.map_eq_some_iff.mp h
  exact integerEngine_prints k

end JavaScript
