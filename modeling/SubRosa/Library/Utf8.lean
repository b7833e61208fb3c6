import SubRosa.Library.JavaScript

/-!
# UTF-8

`TextEncoder` and `TextDecoder`. The decoder takes one byte at a time; a byte
that does not continue the character at hand puts a replacement character in
its place and starts anew. What the encoder writes reads back.
-/

namespace JavaScript

/-- `new TextEncoder().encode(s)`. -/
def textEncode (s : String) : List UInt8 := s.toList.flatMap String.utf8EncodeChar

/-- A character of which `needed` bytes are missing, the first of them from `low` to `high`. -/
structure Pending where
  needed : Nat
  code : Nat
  low : Nat
  high : Nat

def replacement : Char := '\uFFFD'

/-- The first byte of a character. -/
def startChar (b : Nat) : List Char × Option Pending :=
  if b < 0x80 then ([Char.ofNat b], none)
  else if 0xC2 ≤ b ∧ b ≤ 0xDF then ([], some ⟨1, b - 0xC0, 0x80, 0xBF⟩)
  else if 0xE0 ≤ b ∧ b ≤ 0xEF then
    ([], some ⟨2, b - 0xE0, if b = 0xE0 then 0xA0 else 0x80, if b = 0xED then 0x9F else 0xBF⟩)
  else if 0xF0 ≤ b ∧ b ≤ 0xF4 then
    ([], some ⟨3, b - 0xF0, if b = 0xF0 then 0x90 else 0x80, if b = 0xF4 then 0x8F else 0xBF⟩)
  else ([replacement], none)

/-- A further byte. -/
def continueChar (p : Pending) (b : Nat) : List Char × Option Pending :=
  if p.low ≤ b ∧ b ≤ p.high then
    let code := p.code * 64 + (b - 0x80)
    if p.needed = 1 then ([Char.ofNat code], none) else ([], some ⟨p.needed - 1, code, 0x80, 0xBF⟩)
  else
    let (chars, next) := startChar b
    (replacement :: chars, next)

def decodeFrom : Option Pending → List UInt8 → List Char
  | none, [] => []
  | some _, [] => [replacement]
  | none, b :: bytes =>
    let (chars, next) := startChar b.toNat
    chars ++ decodeFrom next bytes
  | some p, b :: bytes =>
    let (chars, next) := continueChar p b.toNat
    chars ++ decodeFrom next bytes

/-- `new TextDecoder().decode(bytes)`, which drops a byte order mark. -/
def textDecode (bytes : List UInt8) : String :=
  match decodeFrom none bytes with
  | '\uFEFF' :: chars => String.ofList chars
  | chars => String.ofList chars

/-! ## One character -/

theorem decodeFrom_start {b : UInt8} {next : Option Pending} {chars : List Char}
    (h : startChar b.toNat = (chars, next)) (bytes : List UInt8) :
    decodeFrom none (b :: bytes) = chars ++ decodeFrom next bytes := by
  rw [decodeFrom, h]

theorem decodeFrom_continue {n code low high : Nat} {b : UInt8} (hlow : low ≤ b.toNat)
    (hhigh : b.toNat ≤ high) (bytes : List UInt8) :
    decodeFrom (some ⟨n + 2, code, low, high⟩) (b :: bytes) =
      decodeFrom (some ⟨n + 1, code * 64 + (b.toNat - 0x80), 0x80, 0xBF⟩) bytes := by
  rw [decodeFrom, continueChar, if_pos ⟨hlow, hhigh⟩, if_neg (show n + 2 ≠ 1 by omega)]
  rfl

theorem decodeFrom_last {code low high : Nat} {b : UInt8} (hlow : low ≤ b.toNat)
    (hhigh : b.toNat ≤ high) (bytes : List UInt8) :
    decodeFrom (some ⟨1, code, low, high⟩) (b :: bytes) =
      Char.ofNat (code * 64 + (b.toNat - 0x80)) :: decodeFrom none bytes := by
  rw [decodeFrom, continueChar, if_pos ⟨hlow, hhigh⟩, if_pos rfl]
  rfl

theorem toNat_byte {n : Nat} (h : n < 256) : (UInt8.ofNat n).toNat = n := by
  simp [Nat.mod_eq_of_lt h]

theorem startChar_one {b : Nat} (h : b < 0x80) : startChar b = ([Char.ofNat b], none) := by
  rw [startChar, if_pos h]

theorem startChar_two {b : Nat} (hlow : 0xC2 ≤ b) (hhigh : b ≤ 0xDF) :
    startChar b = ([], some ⟨1, b - 0xC0, 0x80, 0xBF⟩) := by
  rw [startChar, if_neg (by omega), if_pos ⟨hlow, hhigh⟩]

theorem startChar_three {b : Nat} (hlow : 0xE0 ≤ b) (hhigh : b ≤ 0xEF) :
    startChar b = ([], some ⟨2, b - 0xE0, if b = 0xE0 then 0xA0 else 0x80,
      if b = 0xED then 0x9F else 0xBF⟩) := by
  rw [startChar, if_neg (by omega), if_neg (by omega), if_pos ⟨hlow, hhigh⟩]

theorem startChar_four {b : Nat} (hlow : 0xF0 ≤ b) (hhigh : b ≤ 0xF4) :
    startChar b = ([], some ⟨3, b - 0xF0, if b = 0xF0 then 0x90 else 0x80,
      if b = 0xF4 then 0x8F else 0xBF⟩) := by
  rw [startChar, if_neg (by omega), if_neg (by omega), if_neg (by omega), if_pos ⟨hlow, hhigh⟩]

/-- The four lengths of a character. -/
theorem decode_utf8EncodeChar (c : Char) (rest : List UInt8) :
    decodeFrom none (String.utf8EncodeChar c ++ rest) = c :: decodeFrom none rest := by
  have hvalid : c.toNat < 0xD800 ∨ 0xDFFF < c.toNat ∧ c.toNat < 0x110000 := c.valid
  have hc : Char.ofNat c.toNat = c := Char.ofNat_toNat c
  have hval : c.val.toNat = c.toNat := rfl
  unfold String.utf8EncodeChar
  simp only [hval]
  generalize c.toNat = v at *
  split
  · next h =>
    have hbyte : (UInt8.ofNat v).toNat = v := toNat_byte (by omega)
    rw [List.cons_append, List.nil_append, decodeFrom_start (startChar_one (by omega)), hbyte, hc]
    rfl
  · split
    · next h1 h2 =>
      have hfirst : (UInt8.ofNat (v / 64 % 32 + 0xC0)).toNat = v / 64 % 32 + 0xC0 :=
        toNat_byte (by omega)
      have hlast : (UInt8.ofNat (v % 64 + 0x80)).toNat = v % 64 + 0x80 := toNat_byte (by omega)
      have hcode : (v / 64 % 32 + 0xC0 - 0xC0) * 64 + (v % 64 + 0x80 - 0x80) = v := by omega
      rw [List.cons_append, List.cons_append, List.nil_append,
        decodeFrom_start (startChar_two (by omega) (by omega)),
        decodeFrom_last (by omega) (by omega), hfirst, hlast, hcode, hc]
      rfl
    · split
      · next h1 h2 h3 =>
        have hfirst : (UInt8.ofNat (v / 4096 % 16 + 0xE0)).toNat = v / 4096 % 16 + 0xE0 :=
          toNat_byte (by omega)
        have hsecond : (UInt8.ofNat (v / 64 % 64 + 0x80)).toNat = v / 64 % 64 + 0x80 :=
          toNat_byte (by omega)
        have hlast : (UInt8.ofNat (v % 64 + 0x80)).toNat = v % 64 + 0x80 := toNat_byte (by omega)
        have hcode : ((v / 4096 % 16 + 0xE0 - 0xE0) * 64 + (v / 64 % 64 + 0x80 - 0x80)) * 64 +
            (v % 64 + 0x80 - 0x80) = v := by omega
        rw [List.cons_append, List.cons_append, List.cons_append, List.nil_append,
          decodeFrom_start (startChar_three (by omega) (by omega)), List.nil_append,
          decodeFrom_continue (by split <;> omega) (by split <;> omega),
          decodeFrom_last (by omega) (by omega), hfirst, hsecond, hlast, hcode, hc]
      · next h1 h2 h3 =>
        have hfirst : (UInt8.ofNat (v / 262144 % 8 + 0xF0)).toNat = v / 262144 % 8 + 0xF0 :=
          toNat_byte (by omega)
        have hsecond : (UInt8.ofNat (v / 4096 % 64 + 0x80)).toNat = v / 4096 % 64 + 0x80 :=
          toNat_byte (by omega)
        have hthird : (UInt8.ofNat (v / 64 % 64 + 0x80)).toNat = v / 64 % 64 + 0x80 :=
          toNat_byte (by omega)
        have hlast : (UInt8.ofNat (v % 64 + 0x80)).toNat = v % 64 + 0x80 := toNat_byte (by omega)
        have hcode : (((v / 262144 % 8 + 0xF0 - 0xF0) * 64 + (v / 4096 % 64 + 0x80 - 0x80)) * 64 +
            (v / 64 % 64 + 0x80 - 0x80)) * 64 + (v % 64 + 0x80 - 0x80) = v := by omega
        rw [List.cons_append, List.cons_append, List.cons_append, List.cons_append, List.nil_append,
          decodeFrom_start (startChar_four (by omega) (by omega)), List.nil_append,
          decodeFrom_continue (by split <;> omega) (by split <;> omega),
          decodeFrom_continue (by omega) (by omega),
          decodeFrom_last (by omega) (by omega), hfirst, hsecond, hthird, hlast, hcode, hc]

theorem decodeFrom_encode (cs : List Char) :
    decodeFrom none (cs.flatMap String.utf8EncodeChar) = cs := by
  induction cs with
  | nil => rfl
  | cons c cs ih => rw [List.flatMap_cons, decode_utf8EncodeChar, ih]

theorem textEncode_eq_nil {s : String} : textEncode s = [] ↔ s = "" := by
  constructor
  · intro h
    have hback := decodeFrom_encode s.toList
    rw [show s.toList.flatMap String.utf8EncodeChar = [] from h] at hback
    exact String.toList_inj.mp hback.symm
  · rintro rfl
    rfl

/-- **Reading back**, for a text that does not start with a byte order mark. -/
theorem textDecode_encode {s : String} (h : s.toList.head? ≠ some '\uFEFF') :
    textDecode (textEncode s) = s := by
  rw [textDecode, textEncode, decodeFrom_encode]
  split
  · next chars heq =>
    rw [heq] at h
    exact absurd rfl h
  · exact String.ofList_toList

end JavaScript
