import SubRosa.Library.JavaScript

/-!
# Decimal digits

Runs of decimal digits and the number they denote: how the number follows
concatenation and padding, and that the digits of a number read back.
-/

namespace JavaScript

/-- A nonempty run of decimal digits. -/
def Digits (cs : List Char) : Prop := cs ≠ [] ∧ ∀ c ∈ cs, isDecimalDigit c = true

-- one check for each character of the list, not for each character there is
instance (cs : List Char) : Decidable (Digits cs) :=
  @instDecidableAnd _ _ inferInstance (List.decidableBAll _ cs)

/-- The number of a run of digits. -/
def digitsValue (cs : List Char) : Nat := Nat.ofDigitChars 10 cs 0

theorem digits?_eq_some {cs : List Char} {n : Nat} :
    digits? cs = some n ↔ Digits cs ∧ digitsValue cs = n := by
  unfold digits? Digits digitsValue
  split
  · next h =>
    rw [List.all_eq_true] at h
    rw [Option.some_inj]
    exact ⟨fun hn => ⟨h, hn⟩, And.right⟩
  · next h =>
    rw [List.all_eq_true] at h
    exact ⟨nofun, fun hn => absurd hn.1 h⟩

theorem digits?_digits {cs : List Char} (h : Digits cs) : digits? cs = some (digitsValue cs) :=
  digits?_eq_some.mpr ⟨h, rfl⟩

@[simp] theorem digitsValue_nil : digitsValue [] = 0 := rfl

theorem digitsValue_append (cs ds : List Char) :
    digitsValue (cs ++ ds) = digitsValue cs * 10 ^ ds.length + digitsValue ds := by
  rw [digitsValue, Nat.ofDigitChars_append, Nat.ofDigitChars_eq_ofDigitChars_zero, Nat.mul_comm]
  rfl

theorem digitsValue_zeros (k : Nat) : digitsValue (List.replicate k '0') = 0 := by
  rw [digitsValue, Nat.ofDigitChars_replicate_zero, Nat.mul_zero]

@[simp] theorem digitsValue_toDigits (n : Nat) : digitsValue (Nat.toDigits 10 n) = n :=
  Nat.ofDigitChars_ten_toDigits

theorem isDecimalDigit_eq (c : Char) : isDecimalDigit c = c.isDigit := by
  rw [Bool.eq_iff_iff, isDecimalDigit, decide_eq_true_eq, Char.isDigit, Bool.and_eq_true,
    decide_eq_true_eq, decide_eq_true_eq]
  rfl

theorem digits_toDigits (n : Nat) : Digits (Nat.toDigits 10 n) := by
  refine ⟨Nat.toDigits_ne_nil, fun c hc => ?_⟩
  rw [isDecimalDigit_eq]
  exact Nat.isDigit_of_mem_toDigits (by decide) (by decide) hc

/-- The digits of a number have no leading zero, but for zero itself. -/
theorem toDigits_head (n : Nat) :
    (Nat.toDigits 10 n).head? ≠ some '0' ∨ (Nat.toDigits 10 n).length = 1 := by
  have hpos : ∀ n, 0 < n → (Nat.toDigits 10 n).head? ≠ some '0' := by
    intro n
    induction n using Nat.strongRecOn with
    | ind n ih =>
      intro hn
      rw [Nat.toDigits_eq_if (by decide)]
      split
      · next hlt => interval_cases n <;> decide
      · next hge =>
        rw [List.head?_append_of_ne_nil _ Nat.toDigits_ne_nil]
        exact ih (n / 10) (by omega) (by omega)
  rcases Nat.eq_zero_or_pos n with rfl | hn
  · exact .inr rfl
  · exact .inl (hpos n hn)

theorem isDecimalDigit_zero : isDecimalDigit '0' = true := by decide

theorem digit_code {c : Char} (h : isDecimalDigit c = true) : 48 ≤ c.toNat ∧ c.toNat ≤ 57 := by
  rw [isDecimalDigit, decide_eq_true_eq] at h
  exact h

/-- No digit is white space. -/
theorem digit_not_white {c : Char} (h : isDecimalDigit c = true) : isWhiteSpace c = false := by
  obtain ⟨hlow, hhigh⟩ := digit_code h
  simp only [isWhiteSpace, decide_eq_false_iff_not, List.mem_cons, List.not_mem_nil, or_false]
  omega

theorem mem_trim {cs : List Char} {c : Char} (h : c ∈ cs) (hblack : isWhiteSpace c = false) :
    c ∈ trim cs := by
  have hdrop : ∀ {l : List Char}, c ∈ l → c ∈ l.dropWhile isWhiteSpace := by
    intro l hl
    rw [← List.takeWhile_append_dropWhile (p := isWhiteSpace) (l := l), List.mem_append] at hl
    rcases hl with hl | hl
    · rw [List.mem_takeWhile_imp hl] at hblack
      cases hblack
    · exact hl
  rw [trim, List.mem_reverse]
  exact hdrop (List.mem_reverse.mpr (hdrop h))

theorem trim_sub {cs : List Char} {c : Char} (h : c ∈ trim cs) : c ∈ cs := by
  rw [trim, List.mem_reverse] at h
  have hrev := List.mem_reverse.mp ((List.dropWhile_sublist _).mem h)
  exact (List.dropWhile_sublist _).mem hrev

theorem trim_self {cs : List Char} (h : ∀ c ∈ cs, isWhiteSpace c = false) : trim cs = cs := by
  have hfront : cs.dropWhile isWhiteSpace = cs := by
    rw [List.dropWhile_eq_self_iff]
    intro hl
    simp [h _ (List.getElem_mem hl)]
  rw [trim_eq, hfront, List.rdropWhile_eq_self_iff]
  intro hl
  simp [h _ (List.getLast_mem hl)]

theorem trim_digits {cs : List Char} (h : Digits cs) : trim cs = cs :=
  trim_self fun c hc => digit_not_white (h.2 c hc)

/-- `BigInt` of a run of digits. -/
theorem bigIntText_digits {s : String} (h : Digits s.toList) :
    bigIntText? s = some (digitsValue s.toList : Int) := by
  have hvalue : (digits? s.toList).map Int.ofNat = some (digitsValue s.toList : Int) := by
    rw [digits?_digits h]
    rfl
  unfold bigIntText?
  rw [trim_digits h]
  obtain ⟨hne, hdigits⟩ := h
  generalize s.toList = cs at hne hdigits hvalue
  -- a digit is neither a letter nor a sign
  have hother : ∀ c ∈ cs, ∀ d : Char, isDecimalDigit d = false → c ≠ d := by
    rintro c hc d hd rfl
    rw [hdigits c hc] at hd
    cases hd
  split
  · exact absurd rfl hne
  · exact absurd rfl (hother 'x' (by simp) 'x' (by decide))
  · exact absurd rfl (hother 'X' (by simp) 'X' (by decide))
  · exact absurd rfl (hother 'o' (by simp) 'o' (by decide))
  · exact absurd rfl (hother 'O' (by simp) 'O' (by decide))
  · exact absurd rfl (hother 'b' (by simp) 'b' (by decide))
  · exact absurd rfl (hother 'B' (by simp) 'B' (by decide))
  · exact absurd rfl (hother '-' (by simp) '-' (by decide))
  · exact absurd rfl (hother '+' (by simp) '+' (by decide))
  · exact hvalue

/-! ## Trailing zeros -/

/-- A run of digits is what is left of it without its trailing zeros, and these. -/
theorem exists_zeros (cs : List Char) :
    ∃ k, cs = cs.rdropWhile (· = '0') ++ List.replicate k '0' := by
  have hzeros : cs.rtakeWhile (· = '0') =
      List.replicate (cs.rtakeWhile (· = '0')).length '0' := by
    rw [List.eq_replicate_iff]
    refine ⟨rfl, fun c hc => ?_⟩
    simpa using List.mem_rtakeWhile_imp hc
  refine ⟨(cs.rtakeWhile (· = '0')).length, ?_⟩
  rw [← hzeros]
  exact List.rdropWhile_append_rtakeWhile.symm

end JavaScript
