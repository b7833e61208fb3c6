import Mathlib.Tactic

/-!
# Base 32

The fixed-width base 32 text of a natural number, in the alphabet of letters
and the digits from 2 on.
-/

namespace Base32

/-- The `w` digits of a number below `32 ^ w`, most significant first. -/
def digits : Nat → Nat → List (Fin 32)
  | 0, _ => []
  | w + 1, n => Fin.ofNat 32 (n / 32 ^ w) :: digits w (n % 32 ^ w)

def alphabet : List Char :=
  ['A', 'B', 'C', 'D', 'E', 'F', 'G', 'H', 'I', 'J', 'K', 'L', 'M', 'N', 'O', 'P', 'Q', 'R',
  'S', 'T',
    'U', 'V', 'W', 'X', 'Y', 'Z', '2', '3', '4', '5', '6', '7']

def letter (d : Fin 32) : Char := alphabet.get d

def encode (w n : Nat) : String := String.ofList ((digits w n).map letter)

theorem letter_injective : Function.Injective letter := by
  unfold Function.Injective
  decide

theorem digits_inj {w m n : Nat} (hm : m < 32 ^ w) (hn : n < 32 ^ w)
    (h : digits w m = digits w n) : m = n := by
  induction w generalizing m n with
  | zero =>
    rw [Nat.pow_zero] at hm hn
    omega
  | succ w ih =>
    have hpos : 0 < 32 ^ w := Nat.pow_pos (by decide)
    have hdiv : ∀ {k : Nat}, k < 32 ^ (w + 1) → k / 32 ^ w < 32 := fun hk =>
      Nat.div_lt_of_lt_mul (Nat.pow_succ .. ▸ hk)
    obtain ⟨hhead, htail⟩ := List.cons.inj h
    have hquotient : m / 32 ^ w = n / 32 ^ w := by
      have hvalue := congrArg Fin.val hhead
      simpa [Fin.ofNat, Nat.mod_eq_of_lt (hdiv hm), Nat.mod_eq_of_lt (hdiv hn)] using hvalue
    have hremainder := ih (Nat.mod_lt m hpos) (Nat.mod_lt n hpos) htail
    rw [← Nat.div_add_mod m (32 ^ w), ← Nat.div_add_mod n (32 ^ w), hquotient, hremainder]

theorem encode_inj {w m n : Nat} (hm : m < 32 ^ w) (hn : n < 32 ^ w)
    (h : encode w m = encode w n) : m = n :=
  digits_inj hm hn (List.map_injective_iff.mpr letter_injective (String.ofList_injective h))

/-- The first letter shows the highest digit. -/
theorem head_encode (w n : Nat) :
    (encode (w + 1) n).toList.head? = some (letter (Fin.ofNat 32 (n / 32 ^ w))) := by
  rw [encode, String.toList_ofList]
  rfl

end Base32
