import SubRosa.Library.JsonFields

/-!
# The text of a JSON value

`JSON.stringify` without white space and with any, and `JSON.parse`. A reader
returns what it has read and the characters that are left; the fuel bounds its
nesting. What is written reads back, with its fields in the order in which they
were written.
-/

namespace JavaScript

/-! ## Writing -/

/-- The text of a number; an infinite one has none. -/
def numeral (engine : Engine) : Number → List Char
  | .finite q => (engine.numberToString (.finite q)).toList
  | .infinite _ => ['n', 'u', 'l', 'l']

def quoted (s : String) : List Char := '"' :: (s.toList.flatMap quoteChar ++ ['"'])

def commas : List (List Char) → List Char := [','].intercalate

mutual

/-- The characters of `JSON.stringify(v)`. -/
def Json.chars (engine : Engine) : Json → List Char
  | .null => ['n', 'u', 'l', 'l']
  | .bool true => ['t', 'r', 'u', 'e']
  | .bool false => ['f', 'a', 'l', 's', 'e']
  | .num n => numeral engine n
  | .str s => quoted s
  | .arr items => '[' :: (commas (Json.itemChars engine items) ++ [']'])
  | .obj fields => '\x7b' :: (commas (Json.fieldChars engine fields) ++ ['\x7d'])

def Json.itemChars (engine : Engine) : List Json → List (List Char)
  | [] => []
  | item :: items => item.chars engine :: Json.itemChars engine items

def Json.fieldChars (engine : Engine) : List (String × Json) → List (List Char)
  | [] => []
  | (key, v) :: fields =>
    (quoted key ++ ':' :: v.chars engine) :: Json.fieldChars engine fields

end

/-- `JSON.stringify(v)`. -/
def jsonStringify (engine : Engine) (v : Json) : String := String.ofList (v.chars engine)

/-! ## Reading -/

def isJsonSpace (c : Char) : Bool := c = ' ' || c = '\t' || c = '\n' || c = '\r'

def skipSpace (cs : List Char) : List Char := cs.dropWhile isJsonSpace

/-- The value of four hexadecimal digits. -/
def fourHex? (a b c d : Char) : Option Nat := digitsIn? 16 [a, b, c, d]

/-- The character after a backslash. -/
def escaped? : Char → Option Nat
  | '"' => some 34
  | '\\' => some 92
  | '/' => some 47
  | 'b' => some 8
  | 'f' => some 12
  | 'n' => some 10
  | 'r' => some 13
  | 't' => some 9
  | _ => none

/-- The rest of a text after its opening quote, with code units where it has escapes. -/
def readUnits : List Char → Option (List Nat × List Char)
  | [] => none
  | '"' :: cs => some ([], cs)
  | '\\' :: 'u' :: a :: b :: c :: d :: cs => do
    let n ← fourHex? a b c d
    let (units, rest) ← readUnits cs
    return (n :: units, rest)
  | '\\' :: c :: cs => do
    let n ← escaped? c
    let (units, rest) ← readUnits cs
    return (n :: units, rest)
  | c :: cs =>
    if c.toNat < 32 then none
    else do
      let (units, rest) ← readUnits cs
      return (c.toNat :: units, rest)

def isHighSurrogate (n : Nat) : Bool := 0xD800 ≤ n ∧ n < 0xDC00
def isLowSurrogate (n : Nat) : Bool := 0xDC00 ≤ n ∧ n < 0xE000

/-- Two halves of a pair make one character; a half on its own stands as a replacement
character. -/
def joinUnits : List Nat → List Char
  | [] => []
  | [n] => [if isHighSurrogate n ∨ isLowSurrogate n then '\uFFFD' else Char.ofNat n]
  | n :: m :: units =>
    if isHighSurrogate n ∧ isLowSurrogate m then
      Char.ofNat (0x10000 + (n - 0xD800) * 0x400 + (m - 0xDC00)) :: joinUnits units
    else
      (if isHighSurrogate n ∨ isLowSurrogate n then '\uFFFD' else Char.ofNat n) ::
        joinUnits (m :: units)

def readText (cs : List Char) : Option (String × List Char) :=
  (readUnits cs).map fun p => (String.ofList (joinUnits p.1), p.2)

def isNumeralChar (c : Char) : Bool :=
  isDecimalDigit c || c = '-' || c = '+' || c = '.' || c = 'e' || c = 'E'

def isDigits (cs : List Char) : Bool := cs ≠ [] ∧ cs.all isDecimalDigit

def isExponent : List Char → Bool
  | [] => true
  | e :: '+' :: cs | e :: '-' :: cs => (e = 'e' || e = 'E') && isDigits cs
  | e :: cs => (e = 'e' || e = 'E') && isDigits cs

/-- What may follow the integer part of a number. -/
def isFraction : List Char → Bool
  | '.' :: cs => isDigits (cs.takeWhile isDecimalDigit) && isExponent (cs.dropWhile isDecimalDigit)
  | cs => isExponent cs

def isUnsigned (cs : List Char) : Bool :=
  let integer := cs.takeWhile isDecimalDigit
  isDigits integer && (integer.head? ≠ some '0' || integer.length = 1) &&
    isFraction (cs.dropWhile isDecimalDigit)

/-- The number texts of the format. -/
def isNumeral : List Char → Bool
  | '-' :: cs => isUnsigned cs
  | cs => isUnsigned cs

section

variable (engine : Engine)

def readNumber (cs : List Char) : Option (Json × List Char) :=
  let token := cs.takeWhile isNumeralChar
  if isNumeral token then
    (engine.stringToNumber (String.ofList token)).map fun n =>
      (.num n, cs.dropWhile isNumeralChar)
  else none

mutual

def readValue : Nat → List Char → Option (Json × List Char)
  | 0, _ => none
  | fuel + 1, cs =>
    match skipSpace cs with
    | 'n' :: 'u' :: 'l' :: 'l' :: cs => some (.null, cs)
    | 't' :: 'r' :: 'u' :: 'e' :: cs => some (.bool true, cs)
    | 'f' :: 'a' :: 'l' :: 's' :: 'e' :: cs => some (.bool false, cs)
    | '"' :: cs => (readText cs).map fun p => (.str p.1, p.2)
    | '[' :: cs =>
      match skipSpace cs with
      | ']' :: cs => some (.arr [], cs)
      | cs => (readItems fuel cs).map fun p => (.arr p.1, p.2)
    | '\x7b' :: cs =>
      match skipSpace cs with
      | '\x7d' :: cs => some (.obj [], cs)
      | cs => (readFields fuel cs).map fun p => (.obj p.1, p.2)
    | cs => readNumber engine cs

/-- Items up to the end of their array. -/
def readItems : Nat → List Char → Option (List Json × List Char)
  | 0, _ => none
  | fuel + 1, cs => do
    let (item, cs) ← readValue fuel cs
    match skipSpace cs with
    | ',' :: cs => (readItems fuel cs).map fun p => (item :: p.1, p.2)
    | ']' :: cs => some ([item], cs)
    | _ => none

/-- Fields up to the end of their object. -/
def readFields : Nat → List Char → Option (List (String × Json) × List Char)
  | 0, _ => none
  | fuel + 1, cs =>
    match skipSpace cs with
    | '"' :: cs => do
      let (key, cs) ← readText cs
      match skipSpace cs with
      | ':' :: cs => do
        let (v, cs) ← readValue fuel cs
        match skipSpace cs with
        | ',' :: cs => (readFields fuel cs).map fun p => ((key, v) :: p.1, p.2)
        | '\x7d' :: cs => some ([(key, v)], cs)
        | _ => none
      | _ => none
    | _ => none

end

/-- The value a text stands for, with the fields of its objects as written. -/
def readJson (cs : List Char) : Option Json := do
  let (v, rest) ← readValue engine (2 * cs.length + 1) cs
  if skipSpace rest = [] then some v else none

mutual

/-- Every object is made by assigning its fields in the order in which they are listed. -/
def Json.assemble : Json → Json
  | .arr items => .arr (Json.assembleItems items)
  | .obj fields =>
    .obj ((Json.assembleFields fields).foldl (fun made p => setField made p.1 p.2) [])
  | v => v

def Json.assembleItems : List Json → List Json
  | [] => []
  | item :: items => item.assemble :: Json.assembleItems items

def Json.assembleFields : List (String × Json) → List (String × Json)
  | [] => []
  | (key, v) :: fields => (key, v.assemble) :: Json.assembleFields fields

end

/-- `JSON.parse(s)`. -/
def jsonParse (s : String) : Except Thrown Json :=
  match readJson engine s.toList with
  | some v => .ok v.assemble
  | none => .error (.native .syntaxError)

end

/-! ## Texts read back -/

theorem skipSpace_cons {c : Char} (h : isJsonSpace c = false) (cs : List Char) :
    skipSpace (c :: cs) = c :: cs := List.dropWhile_cons_of_neg (by simp [h])

theorem fourHex_control : ∀ n < 32,
    fourHex? '0' '0' (Nat.digitChar (n / 16)) (Nat.digitChar (n % 16)) = some n := by decide

/-- A character as it is written reads as its code. -/
theorem readUnits_quoteChar (c : Char) (cs : List Char) :
    readUnits (quoteChar c ++ cs) = (readUnits cs).map fun p => (c.toNat :: p.1, p.2) := by
  have hstep : ∀ (x : Option (List Nat × List Char)) (n : Nat), (do
      let (units, rest) ← x
      return (n :: units, rest)) = x.map fun p => (n :: p.1, p.2) := by
    intro x n
    cases x <;> rfl
  unfold quoteChar
  split
  · exact hstep _ _
  · exact hstep _ _
  · exact hstep _ _
  · exact hstep _ _
  · exact hstep _ _
  · next hquote hslash _ _ _ =>
    split
    · next h => rw [h]; exact hstep _ _
    · split
      · next h => rw [h]; exact hstep _ _
      · split
        · next h =>
          have hhex := fourHex_control c.toNat h
          show readUnits ('\\' :: 'u' :: '0' :: '0' :: _ :: _ :: cs) = _
          rw [readUnits, hhex]
          exact hstep _ _
        · next h =>
          show readUnits (c :: cs) = _
          rw [readUnits.eq_def]
          split <;> simp_all

theorem readUnits_quoted (s rest : List Char) :
    readUnits (s.flatMap quoteChar ++ '"' :: rest) = some (s.map Char.toNat, rest) := by
  induction s with
  | nil => rfl
  | cons c s ih =>
    rw [List.flatMap_cons, List.append_assoc, readUnits_quoteChar, ih]
    rfl

theorem not_surrogate (c : Char) :
    isHighSurrogate c.toNat = false ∧ isLowSurrogate c.toNat = false := by
  have hvalid : c.toNat < 0xD800 ∨ 0xDFFF < c.toNat ∧ c.toNat < 0x110000 := c.valid
  simp only [isHighSurrogate, isLowSurrogate, decide_eq_false_iff_not]
  omega

theorem joinUnits_chars (s : List Char) : joinUnits (s.map Char.toNat) = s := by
  induction s with
  | nil => rfl
  | cons c s ih =>
    obtain ⟨hhigh, hlow⟩ := not_surrogate c
    cases s with
    | nil => simp [joinUnits, hhigh, hlow]
    | cons d s =>
      rw [List.map_cons] at ih
      rw [List.map_cons, List.map_cons, joinUnits, ih]
      simp [hhigh, hlow]

theorem readText_quoted (s : String) (rest : List Char) :
    readText (s.toList.flatMap quoteChar ++ '"' :: rest) = some (s, rest) := by
  rw [readText, readUnits_quoted, Option.map_some, joinUnits_chars, String.ofList_toList]

/-! ## Numbers read back -/

theorem isDigits_numeral {cs : List Char} (h : isDigits cs = true) :
    cs ≠ [] ∧ ∀ c ∈ cs, isNumeralChar c = true := by
  obtain ⟨hne, hall⟩ := of_decide_eq_true h
  refine ⟨hne, fun c hc => ?_⟩
  rw [isNumeralChar, List.all_eq_true.mp hall c hc]
  rfl

theorem isExponent_numeral {cs : List Char} (h : isExponent cs = true) :
    ∀ c ∈ cs, isNumeralChar c = true := by
  unfold isExponent at h
  split at h
  · simp
  all_goals
    rw [Bool.and_eq_true, Bool.or_eq_true, decide_eq_true_eq, decide_eq_true_eq] at h
    obtain ⟨hletter, hdigits⟩ := h
    intro c hc
    simp only [List.mem_cons] at hc
    have := (isDigits_numeral hdigits).2 c
    rcases hletter with rfl | rfl <;> grind [isNumeralChar]

/-- A run of digits and what follows it. -/
theorem digits_then {p : List Char → Bool} {cs : List Char}
    (hp : ∀ rest, p rest = true → ∀ c ∈ rest, isNumeralChar c = true)
    (hdigits : isDigits (cs.takeWhile isDecimalDigit) = true)
    (hrest : p (cs.dropWhile isDecimalDigit) = true) : ∀ c ∈ cs, isNumeralChar c = true := by
  intro c hc
  rw [← List.takeWhile_append_dropWhile (p := isDecimalDigit) (l := cs)] at hc
  rcases List.mem_append.mp hc with hc | hc
  · exact (isDigits_numeral hdigits).2 c hc
  · exact hp _ hrest c hc

theorem isFraction_numeral {cs : List Char} (h : isFraction cs = true) :
    ∀ c ∈ cs, isNumeralChar c = true := by
  unfold isFraction at h
  split at h
  · rw [Bool.and_eq_true] at h
    intro c hc
    rcases List.mem_cons.mp hc with rfl | hc
    · rfl
    · exact digits_then (fun _ => isExponent_numeral) h.1 h.2 c hc
  · exact isExponent_numeral h

theorem isUnsigned_numeral {cs : List Char} (h : isUnsigned cs = true) :
    cs ≠ [] ∧ ∀ c ∈ cs, isNumeralChar c = true := by
  unfold isUnsigned at h
  simp only [Bool.and_eq_true] at h
  refine ⟨?_, digits_then (fun _ => isFraction_numeral) h.1.1 h.2⟩
  rintro rfl
  exact (isDigits_numeral h.1.1).1 rfl

theorem isNumeral_numeral {cs : List Char} (h : isNumeral cs = true) :
    cs ≠ [] ∧ ∀ c ∈ cs, isNumeralChar c = true := by
  unfold isNumeral at h
  split at h
  · refine ⟨by simp, fun c hc => ?_⟩
    rcases List.mem_cons.mp hc with rfl | hc
    · rfl
    · exact (isUnsigned_numeral h).2 c hc
  · exact isUnsigned_numeral h

/-- Nothing that continues a number. -/
def EndsNumber (rest : List Char) : Prop := ∀ c ∈ rest.head?, isNumeralChar c = false

theorem EndsNumber.takeWhile {rest : List Char} (h : EndsNumber rest) :
    rest.takeWhile isNumeralChar = [] ∧ rest.dropWhile isNumeralChar = rest := by
  cases rest with
  | nil => exact ⟨rfl, rfl⟩
  | cons c rest =>
    have hc : ¬ isNumeralChar c = true := by simp [h c rfl]
    exact ⟨List.takeWhile_cons_of_neg hc, List.dropWhile_cons_of_neg hc⟩

/-- The text of the number is one of the format and stands for the number. -/
def Engine.Prints (engine : Engine) : Number → Prop
  | .finite q => isNumeral (engine.numberToString (.finite q)).toList = true ∧
      engine.stringToNumber (engine.numberToString (.finite q)) = some (.finite q)
  | .infinite _ => True

/-- Every number and the names of every object satisfy a property. -/
inductive Json.Every (number : Number → Prop) (names : List String → Prop) : Json → Prop
  | null : Json.Every number names .null
  | bool (b : Bool) : Json.Every number names (.bool b)
  | num {n : Number} : number n → Json.Every number names (.num n)
  | str (s : String) : Json.Every number names (.str s)
  | arr {items : List Json} : (∀ v ∈ items, Json.Every number names v) →
      Json.Every number names (.arr items)
  | obj {fields : List (String × Json)} : names (fields.map Prod.fst) →
      (∀ p ∈ fields, Json.Every number names p.2) → Json.Every number names (.obj fields)

variable {engine : Engine}

theorem readNumber_numeral {q : ℚ} (h : engine.Prints (.finite q)) {rest : List Char}
    (hrest : EndsNumber rest) :
    readNumber engine (numeral engine (.finite q) ++ rest) = some (.num (.finite q), rest) := by
  obtain ⟨hform, hvalue⟩ := h
  obtain ⟨-, hall⟩ := isNumeral_numeral hform
  obtain ⟨htake, hdrop⟩ := hrest.takeWhile
  unfold readNumber
  rw [numeral, List.takeWhile_append_of_pos hall, List.dropWhile_append_of_pos hall, htake, hdrop,
    List.append_nil, if_pos hform, String.ofList_toList, hvalue]
  rfl

@[simp] theorem commas_nil : commas [] = [] := rfl

@[simp] theorem commas_one (cs : List Char) : commas [cs] = cs := List.intercalate_singleton

theorem commas_cons (cs ds : List Char) (l : List (List Char)) :
    commas (cs :: ds :: l) = cs ++ ',' :: commas (ds :: l) := by
  rw [commas, List.intercalate_cons_cons, List.append_assoc]
  rfl

/-! ## Layouts -/

/-- White space that a writer puts between the tokens of a text. -/
structure Layout where
  /-- Before each item or field of that depth, and before the end of what holds it. -/
  gap : Nat → List Char
  afterColon : List Char
  gap_space : ∀ d, ∀ c ∈ gap d, isJsonSpace c = true
  afterColon_space : ∀ c ∈ afterColon, isJsonSpace c = true

/-- An array or an object of the texts of its parts. -/
def Layout.enclose (l : Layout) (d : Nat) (opening closing : Char) (parts : List (List Char)) :
    List Char :=
  if parts = [] then [opening, closing]
  else opening :: (commas (parts.map fun part => l.gap (d + 1) ++ part) ++ (l.gap d ++ [closing]))

mutual

/-- The characters of a value at a depth. -/
def Json.laidOut (engine : Engine) (l : Layout) : Json → Nat → List Char
  | .null, _ => ['n', 'u', 'l', 'l']
  | .bool true, _ => ['t', 'r', 'u', 'e']
  | .bool false, _ => ['f', 'a', 'l', 's', 'e']
  | .num n, _ => numeral engine n
  | .str s, _ => quoted s
  | .arr items, d => l.enclose d '[' ']' (Json.itemsLaidOut engine l items (d + 1))
  | .obj fields, d => l.enclose d '\x7b' '\x7d' (Json.fieldsLaidOut engine l fields (d + 1))

def Json.itemsLaidOut (engine : Engine) (l : Layout) : List Json → Nat → List (List Char)
  | [], _ => []
  | item :: items, d => item.laidOut engine l d :: Json.itemsLaidOut engine l items d

def Json.fieldsLaidOut (engine : Engine) (l : Layout) :
    List (String × Json) → Nat → List (List Char)
  | [], _ => []
  | (key, v) :: fields, d =>
    (quoted key ++ ':' :: (l.afterColon ++ v.laidOut engine l d)) ::
      Json.fieldsLaidOut engine l fields d

end

/-- No white space at all. -/
def compact : Layout where
  gap _ := []
  afterColon := []
  gap_space _ := List.forall_mem_nil _
  afterColon_space := List.forall_mem_nil _

/-- Two blanks for each level, on lines of their own. -/
def twoBlanks : Layout where
  gap d := '\n' :: List.replicate (2 * d) ' '
  afterColon := [' ']
  gap_space d := by
    intro c hc
    rcases List.mem_cons.mp hc with rfl | hc
    · rfl
    · rw [List.eq_of_mem_replicate hc]
      rfl
  afterColon_space := by
    intro c hc
    rw [List.mem_singleton.mp hc]
    rfl

/-- `JSON.stringify(v, null, 2)`. -/
def jsonStringifyIndented (engine : Engine) (v : Json) : String :=
  String.ofList (v.laidOut engine twoBlanks 0)

theorem Json.laidOut_compact (v : Json) : ∀ d, v.laidOut engine compact d = v.chars engine := by
  have hmap : ∀ (d : Nat) (parts : List (List Char)),
      parts.map (fun part => compact.gap (d + 1) ++ part) = parts :=
    fun d parts => map_eq_self_iff.mpr fun _ _ => rfl
  induction v using Json.induct with
  | null => exact fun _ => rfl
  | bool b => cases b <;> exact fun _ => rfl
  | num n => exact fun _ => rfl
  | str s => exact fun _ => rfl
  | arr items ih =>
    intro d
    have hitems : Json.itemsLaidOut engine compact items (d + 1) = Json.itemChars engine items := by
      induction items with
      | nil => rfl
      | cons v items ihs =>
        rw [Json.itemsLaidOut, Json.itemChars, ih v List.mem_cons_self,
          ihs fun w hw => ih w (List.mem_cons_of_mem _ hw)]
    rw [Json.laidOut, Json.chars, Layout.enclose, hitems, hmap]
    split
    · next h => rw [h]; rfl
    · rfl
  | obj fields ih =>
    intro d
    have hfields : Json.fieldsLaidOut engine compact fields (d + 1) =
        Json.fieldChars engine fields := by
      induction fields with
      | nil => rfl
      | cons p fields ihs =>
        obtain ⟨key, v⟩ := p
        rw [Json.fieldsLaidOut, Json.fieldChars, ih (key, v) List.mem_cons_self,
          ihs fun q hq => ih q (List.mem_cons_of_mem _ hq)]
        rfl
    rw [Json.laidOut, Json.chars, Layout.enclose, hfields, hmap]
    split
    · next h => rw [h]; rfl
    · rfl

/-! ## Values read back -/

/-- The reader reads the text as `v`. -/
def Reads (engine : Engine) (v : Json) (text : List Char) : Prop :=
  ∀ fuel rest, 2 * text.length ≤ fuel → EndsNumber rest →
    readValue engine fuel (text ++ rest) = some (v.copy, rest)

/-- How the text of a value starts. -/
def Starts (text : List Char) : Prop := ∃ c cs, text = c :: cs ∧ isJsonSpace c = false ∧ c ≠ ']'

theorem skipSpace_space {space : List Char} (h : ∀ c ∈ space, isJsonSpace c = true)
    (cs : List Char) : skipSpace (space ++ cs) = skipSpace cs :=
  List.dropWhile_append_of_pos h

theorem skipSpace_skipSpace (cs : List Char) : skipSpace (skipSpace cs) = skipSpace cs :=
  List.dropWhile_idempotent _ _

theorem endsNumber_cons {c : Char} (h : isNumeralChar c = false) (rest : List Char) :
    EndsNumber (c :: rest) := by
  rintro d hd
  cases hd
  exact h

theorem endsNumber_space {space : List Char} (h : ∀ c ∈ space, isJsonSpace c = true)
    {rest : List Char} (hrest : EndsNumber rest) : EndsNumber (space ++ rest) := by
  cases space with
  | nil => exact hrest
  | cons c space =>
    have hspace := h c List.mem_cons_self
    simp only [isJsonSpace, Bool.or_eq_true, decide_eq_true_eq] at hspace
    refine endsNumber_cons ?_ (space ++ rest)
    rcases hspace with ((rfl | rfl) | rfl) | rfl <;> rfl

theorem readValue_skip (fuel : Nat) (cs : List Char) :
    readValue engine fuel (skipSpace cs) = readValue engine fuel cs := by
  cases fuel with
  | zero => rfl
  | succ fuel => rw [readValue, readValue, skipSpace_skipSpace]

theorem readItems_skip (fuel : Nat) (cs : List Char) :
    readItems engine fuel (skipSpace cs) = readItems engine fuel cs := by
  cases fuel with
  | zero => rfl
  | succ fuel => rw [readItems, readItems, readValue_skip]

theorem readFields_skip (fuel : Nat) (cs : List Char) :
    readFields engine fuel (skipSpace cs) = readFields engine fuel cs := by
  cases fuel with
  | zero => rfl
  | succ fuel => rw [readFields, readFields, skipSpace_skipSpace]

theorem Reads.space {v : Json} {text space : List Char} (h : Reads engine v text)
    (hspace : ∀ c ∈ space, isJsonSpace c = true) : Reads engine v (space ++ text) := by
  intro fuel rest hfuel hrest
  rw [List.length_append] at hfuel
  rw [List.append_assoc, ← readValue_skip, skipSpace_space hspace, readValue_skip]
  exact h fuel rest (by omega) hrest

/-- Items that are read one by one are read as a list. -/
theorem reads_items {items : List Json} {texts : List (List Char)}
    (h : List.Forall₂ (Reads engine) items texts) (hne : items ≠ []) {tail : List Char}
    (htail : ∀ c ∈ tail, isJsonSpace c = true) {fuel : Nat}
    (hfuel : 2 * (commas texts).length + 1 ≤ fuel) (rest : List Char) :
    readItems engine fuel (commas texts ++ (tail ++ ']' :: rest)) =
      some (Json.copyItems items, rest) := by
  induction h generalizing fuel with
  | nil => exact absurd rfl hne
  | @cons v text items texts hv hrest ih =>
    obtain ⟨fuel, rfl⟩ : ∃ n, fuel = n + 1 := ⟨fuel - 1, by omega⟩
    cases hrest with
    | nil =>
      rw [commas_one] at hfuel ⊢
      have hend : skipSpace (tail ++ ']' :: rest) = ']' :: rest := by
        rw [skipSpace_space htail, skipSpace_cons rfl]
      rw [readItems, hv fuel _ (by omega) (endsNumber_space htail (endsNumber_cons rfl rest))]
      simp only [bind, Option.bind, hend]
      rfl
    | @cons w text' items texts hw hws =>
      have hlater := @ih (by simp) fuel
      rw [commas_cons] at hfuel ⊢
      rw [List.length_append, List.length_cons] at hfuel
      rw [List.append_assoc, List.cons_append, readItems,
        hv fuel _ (by omega) (endsNumber_cons rfl _)]
      show (readItems engine fuel _).map _ = _
      rw [hlater (by omega)]
      rfl

/-- The text is read as the field. -/
def ReadsField (engine : Engine) (p : String × Json) (text : List Char) : Prop :=
  ∃ space body, text = space ++ (quoted p.1 ++ ':' :: body) ∧
    (∀ c ∈ space, isJsonSpace c = true) ∧ Reads engine p.2 body

theorem readFields_key (fuel : Nat) (key : String) {space : List Char}
    (hspace : ∀ c ∈ space, isJsonSpace c = true) (cs : List Char) :
    readFields engine (fuel + 1) (space ++ (quoted key ++ ':' :: cs)) = (do
      let (v, cs) ← readValue engine fuel cs
      match skipSpace cs with
      | ',' :: cs => (readFields engine fuel cs).map fun p => ((key, v) :: p.1, p.2)
      | '\x7d' :: cs => some ([(key, v)], cs)
      | _ => none) := by
  rw [← readFields_skip, skipSpace_space hspace, readFields_skip, quoted, List.cons_append,
    List.append_assoc, readFields, skipSpace_cons rfl]
  show (readText (key.toList.flatMap quoteChar ++ '"' :: ':' :: cs) >>= _) = _
  rw [readText_quoted]
  have hcolon : skipSpace (':' :: cs) = ':' :: cs := skipSpace_cons rfl cs
  simp only [bind, Option.bind, hcolon]

theorem reads_fields {fields : List (String × Json)} {texts : List (List Char)}
    (h : List.Forall₂ (ReadsField engine) fields texts) (hne : fields ≠ []) {tail : List Char}
    (htail : ∀ c ∈ tail, isJsonSpace c = true) {fuel : Nat}
    (hfuel : 2 * (commas texts).length + 1 ≤ fuel) (rest : List Char) :
    readFields engine fuel (commas texts ++ (tail ++ '\x7d' :: rest)) =
      some (Json.copyFields fields, rest) := by
  induction h generalizing fuel with
  | nil => exact absurd rfl hne
  | @cons p text fields texts hp hrest ih =>
    obtain ⟨key, v⟩ := p
    obtain ⟨space, body, rfl, hspace, hv⟩ := hp
    obtain ⟨fuel, rfl⟩ : ∃ n, fuel = n + 1 := ⟨fuel - 1, by omega⟩
    cases hrest with
    | nil =>
      rw [commas_one] at hfuel ⊢
      simp only [List.length_append, List.length_cons] at hfuel
      have hend : skipSpace (tail ++ '\x7d' :: rest) = '\x7d' :: rest := by
        rw [skipSpace_space htail, skipSpace_cons rfl]
      rw [List.append_assoc, List.append_assoc, List.cons_append, readFields_key fuel key hspace,
        hv fuel _ (by omega) (endsNumber_space htail (endsNumber_cons rfl rest))]
      simp only [bind, Option.bind, hend]
      rfl
    | @cons q text' fields texts hq hqs =>
      have hlater := @ih (by simp) fuel
      rw [commas_cons] at hfuel ⊢
      simp only [List.length_append, List.length_cons] at hfuel
      rw [List.append_assoc, List.append_assoc, List.append_assoc, List.cons_append,
        List.cons_append, readFields_key fuel key hspace, hv fuel _ (by omega)
          (endsNumber_cons rfl _)]
      show (readFields engine fuel _).map _ = _
      rw [hlater (by omega)]
      rfl

theorem commas_head (text : List Char) (texts : List (List Char)) :
    ∃ cs, commas (text :: texts) = text ++ cs := by
  cases texts with
  | nil => exact ⟨[], by rw [commas_one, List.append_nil]⟩
  | cons text' texts => exact ⟨_, commas_cons text text' texts⟩

theorem readValue_bracket (fuel : Nat) {cs : List Char} {c : Char} {ds : List Char}
    (hcs : skipSpace cs = c :: ds) (hc : c ≠ ']') :
    readValue engine (fuel + 1) ('[' :: cs) =
      (readItems engine fuel cs).map fun p => (.arr p.1, p.2) := by
  simp only [readValue, skipSpace_cons (c := '[') rfl, hcs]
  rw [← readItems_skip fuel cs, hcs]
  split
  · next h => cases h; exact absurd rfl hc
  · rfl

theorem readValue_brace (fuel : Nat) {cs ds : List Char} (hcs : skipSpace cs = '"' :: ds) :
    readValue engine (fuel + 1) ('\x7b' :: cs) =
      (readFields engine fuel cs).map fun p => (.obj p.1, p.2) := by
  simp only [readValue, skipSpace_cons (c := '\x7b') rfl, hcs]
  rw [← readFields_skip fuel cs, hcs]
  rfl

/-- Texts that start are read where there is any fuel for them. -/
theorem Starts.fuel {text : List Char} (h : Starts text) {fuel : Nat}
    (hfuel : 2 * text.length ≤ fuel) : ∃ n, fuel = n + 1 := by
  obtain ⟨c, cs, rfl, -⟩ := h
  rw [List.length_cons] at hfuel
  exact ⟨fuel - 1, by omega⟩

section

variable {l : Layout} {names : List String → Prop}

theorem enclose_starts (d : Nat) {opening closing : Char} (parts : List (List Char))
    (hspace : isJsonSpace opening = false) (hne : opening ≠ ']') :
    Starts (l.enclose d opening closing parts) := by
  unfold Layout.enclose
  split
  · exact ⟨_, _, rfl, hspace, hne⟩
  · exact ⟨_, _, rfl, hspace, hne⟩

theorem numeral_starts {n : Number} (h : engine.Prints n) : Starts (numeral engine n) := by
  cases n with
  | infinite b => exact ⟨_, _, rfl, rfl, by decide⟩
  | finite q =>
    obtain ⟨hne, hall⟩ := isNumeral_numeral h.1
    obtain ⟨c, cs, hcs⟩ := List.exists_cons_of_ne_nil hne
    have hc : isNumeralChar c = true := hall c (by rw [hcs]; exact List.mem_cons_self)
    refine ⟨c, cs, hcs, ?_, ?_⟩
    · by_contra hspace
      rw [Bool.not_eq_false] at hspace
      simp only [isJsonSpace, Bool.or_eq_true, decide_eq_true_eq] at hspace
      rcases hspace with ((rfl | rfl) | rfl) | rfl <;> cases hc
    · rintro rfl
      cases hc

theorem Json.laidOut_starts {v : Json} (h : v.Every engine.Prints names) (d : Nat) :
    Starts (v.laidOut engine l d) := by
  cases h with
  | null => exact ⟨_, _, rfl, rfl, by decide⟩
  | bool b => cases b <;> exact ⟨_, _, rfl, rfl, by decide⟩
  | num h => exact numeral_starts h
  | str s => exact ⟨_, _, rfl, rfl, by decide⟩
  | arr h => exact enclose_starts d _ rfl (by decide)
  | obj h => exact enclose_starts d _ rfl (by decide)

theorem reads_numeral {n : Number} (h : engine.Prints n) :
    Reads engine (.num n) (numeral engine n) := by
  intro fuel rest hfuel hrest
  obtain ⟨fuel, rfl⟩ := (numeral_starts h).fuel hfuel
  cases n with
  | infinite b => rfl
  | finite q =>
    obtain ⟨c, cs, hcs, hspace, -⟩ := numeral_starts h
    obtain ⟨-, hall⟩ := isNumeral_numeral h.1
    have hc : isNumeralChar c = true := hall c (by
      rw [show (engine.numberToString _).toList = c :: cs from hcs]
      exact List.mem_cons_self)
    have hread := readNumber_numeral h hrest
    rw [hcs] at hread ⊢
    rw [List.cons_append, readValue, skipSpace_cons hspace]
    split
    all_goals first
      | exact hread
      | (next h => obtain ⟨rfl, -⟩ := List.cons.inj h; cases hc)

theorem reads_quoted (s : String) : Reads engine (.str s) (quoted s) := by
  intro fuel rest hfuel _
  obtain ⟨fuel, rfl⟩ : ∃ n, fuel = n + 1 := Starts.fuel ⟨_, _, rfl, rfl, by decide⟩ hfuel
  rw [quoted, List.cons_append, List.append_assoc, readValue, skipSpace_cons rfl]
  show (readText (s.toList.flatMap quoteChar ++ '"' :: rest)).map _ = _
  rw [readText_quoted]
  rfl

/-- Items with the gaps before them. -/
theorem itemsLaidOut_read {items : List Json} (d : Nat)
    (h : ∀ v ∈ items, ∀ d, Reads engine v (v.laidOut engine l d)) :
    List.Forall₂ (Reads engine) items
      ((Json.itemsLaidOut engine l items d).map fun part => l.gap d ++ part) := by
  induction items with
  | nil => exact .nil
  | cons v items ih =>
    exact .cons ((h v List.mem_cons_self d).space (l.gap_space d))
      (ih fun w hw => h w (List.mem_cons_of_mem _ hw))

theorem fieldsLaidOut_read {fields : List (String × Json)} (d : Nat)
    (h : ∀ p ∈ fields, ∀ d, Reads engine p.2 (p.2.laidOut engine l d)) :
    List.Forall₂ (ReadsField engine) fields
      ((Json.fieldsLaidOut engine l fields d).map fun part => l.gap d ++ part) := by
  induction fields with
  | nil => exact .nil
  | cons p fields ih =>
    obtain ⟨key, v⟩ := p
    refine .cons ⟨l.gap d, _, rfl, l.gap_space d, ?_⟩
      (ih fun q hq => h q (List.mem_cons_of_mem _ hq))
    exact (h (key, v) List.mem_cons_self d).space l.afterColon_space

/-- **The text of a value reads back**, however it is laid out. -/
theorem Json.reads {v : Json} (h : v.Every engine.Prints names) :
    ∀ d, Reads engine v (v.laidOut engine l d) := by
  induction h with
  | null =>
    intro d fuel rest hfuel _
    obtain ⟨fuel, rfl⟩ := (@Json.laidOut_starts engine l names _ .null d).fuel hfuel
    rfl
  | bool b =>
    intro d fuel rest hfuel _
    obtain ⟨fuel, rfl⟩ := (@Json.laidOut_starts engine l names _ (.bool b) d).fuel hfuel
    cases b <;> rfl
  | num hn => exact fun d => reads_numeral hn
  | str s => exact fun d => reads_quoted s
  | @arr items hitems ih =>
    intro d fuel rest hfuel _
    obtain ⟨fuel, rfl⟩ := (@Json.laidOut_starts engine l names _ (.arr hitems) d).fuel hfuel
    cases items with
    | nil => rfl
    | cons v items =>
      have hread := itemsLaidOut_read (l := l) (d + 1) ih
      obtain ⟨c, cs, hcs, hspace, hc⟩ :=
        @Json.laidOut_starts engine l names _ (hitems v List.mem_cons_self) (d + 1)
      rw [Json.itemsLaidOut, List.map_cons] at hread
      rw [Json.laidOut, Json.itemsLaidOut, Layout.enclose, if_neg (List.cons_ne_nil _ _),
        List.map_cons] at hfuel ⊢
      generalize hrests : (Json.itemsLaidOut engine l items (d + 1)).map _ = texts at hread hfuel ⊢
      have hhead : ∃ ds, skipSpace (commas
          ((l.gap (d + 1) ++ v.laidOut engine l (d + 1)) :: texts) ++ (l.gap d ++ ']' :: rest)) =
            c :: ds := by
        obtain ⟨more, hmore⟩ := commas_head (l.gap (d + 1) ++ v.laidOut engine l (d + 1)) texts
        rw [hmore, List.append_assoc, List.append_assoc, skipSpace_space (l.gap_space _), hcs,
          List.cons_append, skipSpace_cons hspace]
        exact ⟨_, rfl⟩
      obtain ⟨ds, hds⟩ := hhead
      simp only [List.length_append, List.length_cons, List.length_nil] at hfuel
      rw [List.cons_append, List.append_assoc, List.append_assoc, List.cons_append, List.nil_append,
        readValue_bracket fuel hds hc,
        reads_items hread (List.cons_ne_nil _ _) (l.gap_space d) (by omega)]
      rfl
  | @obj fields hnames hfields ih =>
    intro d fuel rest hfuel _
    obtain ⟨fuel, rfl⟩ := (@Json.laidOut_starts engine l names _ (.obj hnames hfields) d).fuel hfuel
    cases fields with
    | nil => rfl
    | cons p fields =>
      obtain ⟨key, v⟩ := p
      have hread := fieldsLaidOut_read (l := l) (d + 1) ih
      rw [Json.fieldsLaidOut, List.map_cons] at hread
      rw [Json.laidOut, Json.fieldsLaidOut, Layout.enclose, if_neg (List.cons_ne_nil _ _),
        List.map_cons] at hfuel ⊢
      generalize hrests : (Json.fieldsLaidOut engine l fields (d + 1)).map _ = texts
        at hread hfuel ⊢
      generalize hfirst : quoted key ++ ':' :: (l.afterColon ++ v.laidOut engine l (d + 1)) = first
        at hread hfuel ⊢
      have hhead : ∃ ds, skipSpace (commas ((l.gap (d + 1) ++ first) :: texts) ++
          (l.gap d ++ '\x7d' :: rest)) = '"' :: ds := by
        obtain ⟨more, hmore⟩ := commas_head (l.gap (d + 1) ++ first) texts
        rw [hmore, List.append_assoc, List.append_assoc, skipSpace_space (l.gap_space _), ← hfirst,
          quoted, List.cons_append, List.cons_append, skipSpace_cons rfl]
        exact ⟨_, rfl⟩
      obtain ⟨ds, hds⟩ := hhead
      simp only [List.length_append, List.length_cons, List.length_nil] at hfuel
      rw [List.cons_append, List.append_assoc, List.append_assoc, List.cons_append, List.nil_append,
        readValue_brace fuel hds,
        reads_fields hread (List.cons_ne_nil _ _) (l.gap_space d) (by omega)]
      rfl

/-- White space after a value is skipped. -/
theorem readJson_laidOut {v : Json} (h : v.Every engine.Prints names) (d : Nat) {rest : List Char}
    (hrest : ∀ c ∈ rest, isJsonSpace c = true) :
    readJson engine (v.laidOut engine l d ++ rest) = some v.copy := by
  have hends : EndsNumber rest := by
    have hnil : EndsNumber (rest ++ []) := endsNumber_space hrest (by rintro c ⟨⟩)
    rwa [List.append_nil] at hnil
  have hskip : skipSpace rest = [] := List.dropWhile_eq_nil_iff.mpr hrest
  rw [readJson, Json.reads h d _ rest (by rw [List.length_append]; omega) hends]
  show (if skipSpace rest = [] then some v.copy else none) = _
  rw [if_pos hskip]

theorem readJson_chars {v : Json} (h : v.Every engine.Prints names) {rest : List Char}
    (hrest : ∀ c ∈ rest, isJsonSpace c = true) :
    readJson engine (v.chars engine ++ rest) = some v.copy := by
  rw [← v.laidOut_compact 0]
  exact readJson_laidOut h 0 hrest

end

/-- What is written the same is the same, up to infinite numbers. -/
theorem Json.chars_inj {names : List String → Prop} {v w : Json} (hv : v.Every engine.Prints names)
    (hw : w.Every engine.Prints names) (h : v.chars engine = w.chars engine) : v.copy = w.copy := by
  have hread := @readJson_chars engine names v hv [] (by simp)
  rw [h, readJson_chars hw (by simp)] at hread
  exact (Option.some_inj.mp hread).symm

end JavaScript
