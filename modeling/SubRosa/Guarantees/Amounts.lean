import SubRosa.OpenX402.Amounts

/-!
# Base units are exact

A quote is accepted just when it is a plain decimal that fits the decimals of
the currency and is positive, and its base units are exactly its value at that
scale. The formatted text of an amount parses back to the amount.
-/

namespace SubRosa.OpenX402

open JavaScript Sdk

/-! ## Plain decimals -/

/-- `cs` is a plain decimal, with the digits `whole` and behind the point `fraction`. -/
inductive PlainDecimal : List Char → List Char → List Char → Prop
  | whole {w : List Char} : Digits w → PlainDecimal w w []
  | point {w f : List Char} : Digits w → Digits f → PlainDecimal (w ++ '.' :: f) w f

/-- The value of a plain decimal. -/
def decimalValue (whole fraction : List Char) : ℚ :=
  digitsValue whole + digitsValue fraction / 10 ^ fraction.length

theorem digits_no_point {cs : List Char} (h : Digits cs) : '.' ∉ cs := by
  intro hmem
  have hdigit := h.2 '.' hmem
  revert hdigit
  decide

theorem PlainDecimal.digits {cs w f : List Char} (h : PlainDecimal cs w f) :
    Digits w ∧ ∀ c ∈ f, isDecimalDigit c = true := by
  cases h with
  | whole hw => exact ⟨hw, by simp⟩
  | point hw hf => exact ⟨hw, hf.2⟩

theorem splitOn_plain {cs w f : List Char} (h : PlainDecimal cs w f) :
    cs.splitOn '.' = if f = [] then [w] else [w, f] := by
  cases h with
  | whole hw => rw [List.splitOn_eq_singleton (digits_no_point hw), if_pos rfl]
  | point hw hf =>
    rw [List.splitOn_append_cons_self_of_not_mem (digits_no_point hw),
      List.splitOn_eq_singleton (digits_no_point hf), if_neg hf.1]

theorem splitDecimal_plain {cs w f : List Char} (h : PlainDecimal cs w f) :
    splitDecimal cs = (w, f) := by
  rw [splitDecimal, splitOn_plain h]
  by_cases hf : f = []
  · rw [if_pos hf, hf]
  · rw [if_neg hf]

theorem isPlainDecimal_iff {cs : List Char} :
    isPlainDecimal cs = true ↔ ∃ w f, PlainDecimal cs w f := by
  have hcs : ['.'].intercalate (cs.splitOn '.') = cs := List.intercalate_splitOn '.'
  constructor
  · intro h
    unfold isPlainDecimal at h
    split at h
    · next w hsplit =>
      rw [hsplit] at hcs
      obtain rfl : w = cs := by simpa using hcs
      exact ⟨w, [], .whole (of_decide_eq_true h)⟩
    · next w f hsplit =>
      rw [hsplit] at hcs
      obtain rfl : w ++ '.' :: f = cs := by simpa [List.intercalate] using hcs
      have hdigits := of_decide_eq_true h
      exact ⟨w, f, .point hdigits.1 hdigits.2⟩
    · cases h
  · rintro ⟨w, f, hplain⟩
    rw [isPlainDecimal, splitOn_plain hplain]
    cases hplain with
    | whole hw => simp [hw]
    | point hw hf => simp [hw, hf, hf.1]

/-! ## To base units -/

theorem bigIntOfText_digits {cs : List Char} (h : Digits cs) :
    bigIntOfText (String.ofList cs) = .ok (digitsValue cs : Int) := by
  rw [bigIntOfText, bigIntText_digits (by rwa [String.toList_ofList]), String.toList_ofList]

/-- The digits behind the point, padded to the scale. -/
theorem bigIntOfText_fraction {f : List Char} (hf : ∀ c ∈ f, isDecimalDigit c = true) (d : Nat) :
    bigIntOfText (String.ofList (orZero (padEnd f d))) =
      .ok ((digitsValue f * 10 ^ (d - f.length) : Nat) : Int) := by
  have hvalue : digitsValue (padEnd f d) = digitsValue f * 10 ^ (d - f.length) := by
    rw [padEnd, digitsValue_append, digitsValue_zeros, List.length_replicate, Nat.add_zero]
  have hdigits : ∀ c ∈ padEnd f d, isDecimalDigit c = true := by
    intro c hc
    rcases List.mem_append.mp hc with h | h
    · exact hf c h
    · rw [List.eq_of_mem_replicate h]
      exact isDecimalDigit_zero
  rw [← hvalue, orZero]
  split
  · next hnil =>
    rw [hnil]
    exact bigIntOfText_digits (by decide)
  · next hne => exact bigIntOfText_digits ⟨hne, hdigits⟩

/-- The base units of a plain decimal. -/
def unitsOf (whole fraction : List Char) (decimals : Nat) : Nat :=
  digitsValue whole * 10 ^ decimals + digitsValue fraction * 10 ^ (decimals - fraction.length)

theorem amountToBaseUnits_eq_ok {s r : String} {d : Nat} :
    amountToBaseUnits s d = .ok r ↔ ∃ w f, PlainDecimal (trim s.toList) w f ∧ f.length ≤ d ∧
      0 < unitsOf w f d ∧ r = toString (unitsOf w f d) := by
  unfold amountToBaseUnits
  rw [throwIf_bind_eq_ok, not_not, isPlainDecimal_iff]
  have hrest : ∀ {w f : List Char}, PlainDecimal (trim s.toList) w f →
      ((do
        throwIf (d < f.length) s!"Quote supports at most {d} decimal places"
        let whole ← bigIntOfText (String.ofList w)
        let fraction ← bigIntOfText (String.ofList (orZero (padEnd f d)))
        let units := whole * 10 ^ d + fraction
        throwIf (units ≤ 0) "Quote must be greater than zero"
        return toString units : Except Thrown String) = .ok r ↔
      f.length ≤ d ∧ 0 < unitsOf w f d ∧ r = toString (unitsOf w f d)) := by
    intro w f hplain
    have hunits : ((digitsValue w : Int) * 10 ^ d +
        ((digitsValue f * 10 ^ (d - f.length) : Nat) : Int)) = (unitsOf w f d : Int) := by
      rw [unitsOf]
      push_cast
      rfl
    rw [throwIf_bind_eq_ok, bigIntOfText_digits hplain.digits.1, bind_ok,
      bigIntOfText_fraction hplain.digits.2, bind_ok, hunits, throwIf_bind_eq_ok]
    constructor
    · rintro ⟨hlength, hpos, hr⟩
      exact ⟨not_lt.mp hlength, by omega, (Except.ok.inj hr).symm⟩
    · rintro ⟨hlength, hpos, rfl⟩
      exact ⟨not_lt.mpr hlength, by omega, rfl⟩
  constructor
  · rintro ⟨⟨w, f, hplain⟩, h⟩
    rw [splitDecimal_plain hplain] at h
    exact ⟨w, f, hplain, (hrest hplain).mp h⟩
  · rintro ⟨w, f, hplain, h⟩
    rw [splitDecimal_plain hplain]
    exact ⟨⟨w, f, hplain⟩, (hrest hplain).mpr h⟩

/-- Base units are the value at the scale of the currency. -/
theorem unitsOf_eq {w f : List Char} {d : Nat} (h : f.length ≤ d) :
    (unitsOf w f d : ℚ) = decimalValue w f * 10 ^ d := by
  have hscale : (10 : ℚ) ^ d = 10 ^ (d - f.length) * 10 ^ f.length := by
    rw [← pow_add, Nat.sub_add_cancel h]
  have hpos : (10 : ℚ) ^ f.length ≠ 0 := by positivity
  rw [unitsOf, decimalValue, add_mul]
  push_cast
  congr 1
  rw [hscale]
  field_simp

theorem unitsOf_pos {w f : List Char} {d : Nat} (h : f.length ≤ d) :
    0 < unitsOf w f d ↔ 0 < decimalValue w f := by
  have hscale : (0 : ℚ) < 10 ^ d := by positivity
  rw [← Nat.cast_pos (α := ℚ), unitsOf_eq h]
  exact mul_pos_iff_of_pos_right hscale

/-! ## And back to a text -/

/-- The text before the currency. -/
def numberPart (formatted : String) : String :=
  String.ofList (formatted.toList.takeWhile (· ≠ ' '))

/-- The digits behind the point that are shown. -/
def shownFraction (n d : Nat) : List Char :=
  stripZeros (padStart (Nat.toDigits 10 (n % 10 ^ d)) d)

theorem length_padStart {cs : List Char} {d : Nat} (h : cs.length ≤ d) :
    (padStart cs d).length = d := by
  rw [padStart, List.length_append, List.length_replicate]
  omega

theorem digitsValue_padStart (cs : List Char) (d : Nat) :
    digitsValue (padStart cs d) = digitsValue cs := by
  rw [padStart, digitsValue_append, digitsValue_zeros, Nat.zero_mul, Nat.zero_add]

/-- The digits shown are those of the remainder without the zeros at the end. -/
theorem shownFraction_spec (n d : Nat) :
    (∀ c ∈ shownFraction n d, isDecimalDigit c = true) ∧ (shownFraction n d).length ≤ d ∧
      digitsValue (shownFraction n d) * 10 ^ (d - (shownFraction n d).length) = n % 10 ^ d := by
  rcases Nat.eq_zero_or_pos d with rfl | hd
  · have hnone : shownFraction n 0 = [] := by
      rw [shownFraction, pow_zero, Nat.mod_one]
      decide
    simp [hnone, Nat.mod_one]
  · have hpositive : 0 < 10 ^ d := by positivity
    have hlength := length_padStart ((Nat.length_toDigits_le_iff (by decide) hd).mpr
      (Nat.mod_lt n hpositive))
    have hvalue := digitsValue_padStart (Nat.toDigits 10 (n % 10 ^ d)) d
    have hdigits : ∀ c ∈ padStart (Nat.toDigits 10 (n % 10 ^ d)) d, isDecimalDigit c = true := by
      intro c hc
      rcases List.mem_append.mp hc with h | h
      · rw [List.eq_of_mem_replicate h]
        exact isDecimalDigit_zero
      · exact (digits_toDigits _).2 c h
    obtain ⟨k, hk⟩ := exists_zeros (padStart (Nat.toDigits 10 (n % 10 ^ d)) d)
    have hshown : padStart (Nat.toDigits 10 (n % 10 ^ d)) d =
        shownFraction n d ++ List.replicate k '0' := hk
    rw [hshown, List.length_append, List.length_replicate] at hlength
    rw [hshown, digitsValue_append, digitsValue_zeros, List.length_replicate, Nat.add_zero,
      digitsValue_toDigits] at hvalue
    refine ⟨fun c hc => hdigits c ?_, by omega, ?_⟩
    · rw [hshown]
      exact List.mem_append_left _ hc
    · rw [show d - (shownFraction n d).length = k by omega, hvalue]

/-- The number part of a formatted amount. -/
def shownNumber (n d : Nat) : List Char :=
  Nat.toDigits 10 (n / 10 ^ d) ++
    (if shownFraction n d = [] then [] else '.' :: shownFraction n d)

theorem shownNumber_plain (n d : Nat) :
    PlainDecimal (shownNumber n d) (Nat.toDigits 10 (n / 10 ^ d)) (shownFraction n d) := by
  have hwhole := digits_toDigits (n / 10 ^ d)
  unfold shownNumber
  by_cases hf : shownFraction n d = []
  · rw [if_pos hf, List.append_nil, hf]
    exact .whole hwhole
  · rw [if_neg hf]
    exact .point hwhole ⟨hf, (shownFraction_spec n d).1⟩

theorem formatBaseUnits_eq (n d : Nat) (currency : String) :
    formatBaseUnits (toString n) d currency =
      .ok (String.ofList (shownNumber n d ++ ' ' :: currency.toList)) := by
  have htext : (toString n).toList = Nat.toDigits 10 n := Nat.toList_repr
  have hunits : bigIntOfText (toString n) = .ok (n : Int) := by
    rw [bigIntOfText, bigIntText_digits (by rw [htext]; exact digits_toDigits n), htext,
      digitsValue_toDigits]
  have hscale : ((10 : Int) ^ d) = ((10 ^ d : Nat) : Int) := by push_cast; rfl
  rw [formatBaseUnits, hunits, bind_ok]
  dsimp only
  rw [hscale, Int.tdiv_eq_ediv_of_nonneg (by omega), Int.tmod_eq_emod_of_nonneg (by omega),
    ← Int.natCast_ediv, ← Int.natCast_emod]
  have hshow : ∀ m : Nat, toString (m : Int) = String.ofList (Nat.toDigits 10 m) := by
    intro m
    rw [← Nat.repr_eq_ofList_toDigits]
    rfl
  have hfraction : stripZeros (padStart (toString ((n % 10 ^ d : Nat) : Int)).toList d) =
      shownFraction n d := by
    rw [hshow, String.toList_ofList]
    rfl
  rw [hfraction, hshow, shownNumber]
  have hself : ∀ t : String, toString t = t := fun _ => rfl
  refine congrArg Except.ok ?_
  rw [← String.toList_inj]
  split <;> simp [hself]

theorem numberPart_formatted (n d : Nat) (currency : String) :
    numberPart (String.ofList (shownNumber n d ++ ' ' :: currency.toList)) =
      String.ofList (shownNumber n d) := by
  have hplain : ∀ c ∈ shownNumber n d, decide (c ≠ ' ') = true := by
    have hdigit : ∀ c, isDecimalDigit c = true → c ≠ ' ' := by
      rintro c hc rfl
      revert hc
      decide
    intro c hc
    rw [decide_eq_true_eq]
    rcases List.mem_append.mp hc with h | h
    · exact hdigit c ((digits_toDigits _).2 c h)
    · split at h
      · cases h
      · rcases List.mem_cons.mp h with rfl | h
        · decide
        · exact hdigit c ((shownFraction_spec n d).1 c h)
  rw [numberPart, String.toList_ofList, List.takeWhile_append_of_pos hplain]
  simp

/-- The formatted text of a positive amount parses back to it. -/
theorem amount_formatted {n : Nat} (hn : 0 < n) (d : Nat) (currency : String) :
    ∃ text, formatBaseUnits (toString n) d currency = .ok text ∧
      amountToBaseUnits (numberPart text) d = .ok (toString n) := by
  refine ⟨_, formatBaseUnits_eq n d currency, ?_⟩
  obtain ⟨-, hlength, hvalue⟩ := shownFraction_spec n d
  have hunits : unitsOf (Nat.toDigits 10 (n / 10 ^ d)) (shownFraction n d) d = n := by
    rw [unitsOf, hvalue, digitsValue_toDigits]
    exact Nat.div_add_mod' n (10 ^ d)
  have htrim : trim (shownNumber n d) = shownNumber n d := by
    refine trim_self fun c hc => ?_
    rcases List.mem_append.mp hc with h | h
    · exact digit_not_white ((digits_toDigits _).2 c h)
    · split at h
      · cases h
      · rcases List.mem_cons.mp h with rfl | h
        · decide
        · exact digit_not_white ((shownFraction_spec n d).1 c h)
  rw [numberPart_formatted, amountToBaseUnits_eq_ok, String.toList_ofList, htrim]
  exact ⟨_, _, shownNumber_plain n d, hlength, by rw [hunits]; exact hn, by rw [hunits]⟩

/-- A quote is accepted just when it is a plain decimal of positive value with
at most `d` digits behind the point, its base units are its value at `10 ^ d`,
and formatted base units parse back. -/
theorem base_units_exact :
    (∀ (s r : String) (d : Nat), amountToBaseUnits s d = .ok r ↔
      ∃ w f, PlainDecimal (trim s.toList) w f ∧ 0 < decimalValue w f ∧ f.length ≤ d ∧
        ∃ units : Nat, (units : ℚ) = decimalValue w f * 10 ^ d ∧ r = toString units) ∧
    (∀ (n d : Nat) (currency : String), 0 < n →
      ∃ text, formatBaseUnits (toString n) d currency = .ok text ∧
        amountToBaseUnits (numberPart text) d = .ok (toString n)) := by
  refine ⟨?_, fun n d currency hn => amount_formatted hn d currency⟩
  intro s r d
  rw [amountToBaseUnits_eq_ok]
  constructor
  · rintro ⟨w, f, hplain, hlength, hpos, rfl⟩
    exact ⟨w, f, hplain, (unitsOf_pos hlength).mp hpos, hlength, _, unitsOf_eq hlength, rfl⟩
  · rintro ⟨w, f, hplain, hpos, hlength, units, hunits, rfl⟩
    have heq : units = unitsOf w f d := by
      rw [← unitsOf_eq hlength] at hunits
      exact_mod_cast hunits
    exact ⟨w, f, hplain, hlength, (unitsOf_pos hlength).mpr hpos, by rw [heq]⟩

end SubRosa.OpenX402
