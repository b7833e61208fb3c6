import Mathlib.Data.List.DropRight
import Mathlib.Tactic

/-!
# JSON values as JavaScript reads them

The values `JSON.parse` can return, with the conversions a program applies to
them: truth, strict equality, property reads, text, numbers and big integers.
Two different places of one JSON value hold different objects, so objects and
arrays from different places are never equal. A string is a Lean string: a half
of a surrogate pair on its own is left out. What the language leaves to its
engine (the text of a number, the number of a text) is a parameter.
-/

namespace JavaScript

/-- A number of a JSON text; an exponent can make it infinite, nothing makes it `NaN`. -/
inductive Number
  | finite (q : ℚ)
  | infinite (negative : Bool)
  deriving DecidableEq

/-- The fields of an object are listed in the order of `Object.keys`. -/
inductive Json
  | null
  | bool (b : Bool)
  | num (n : Number)
  | str (s : String)
  | arr (items : List Json)
  | obj (fields : List (String × Json))

/-- A value; `none` is `undefined`. -/
abbrev JsValue := Option Json

/-- The errors the language itself throws. -/
inductive Native
  | typeError
  | rangeError
  | syntaxError
  deriving DecidableEq

/-- What a call throws: an error with a text of the program, or one of the language. -/
inductive Thrown
  | error (message : String)
  | rangeError (message : String)
  | native (e : Native)
  deriving DecidableEq

/-- A step that does not throw, and then the rest. -/
theorem bind_eq_ok {ε α β : Type} {x : Except ε α} {f : α → Except ε β} {b : β} :
    (x >>= f) = .ok b ↔ ∃ a, x = .ok a ∧ f a = .ok b := by
  cases x with
  | ok a => simp [bind, Except.bind]
  | error e => simp [bind, Except.bind]

theorem mapError_eq_ok {ε ε' α : Type} {x : Except ε α} {f : ε → ε'} {a : α} :
    x.mapError f = .ok a ↔ x = .ok a := by
  cases x <;> simp [Except.mapError]

theorem mapM_ok {α β : Type} {f : α → Except Thrown β} {g : α → β} {l : List α}
    (h : ∀ a ∈ l, f a = .ok (g a)) : l.mapM f = .ok (l.map g) := by
  induction l with
  | nil => rfl
  | cons a l ih =>
    rw [List.forall_mem_cons] at h
    rw [List.mapM_cons, h.1, ih h.2]
    rfl

structure Engine where
  numberToString : Number → String
  /-- The number a text denotes, `none` for `NaN`. -/
  stringToNumber : String → Option Number
  /-- The names an array or a primitive value inherits from its prototypes. -/
  inherits : Json → String → Bool
  message : Native → String

/-- An engine for samples without numbers: its texts are empty. -/
def silentEngine : Engine := ⟨fun _ => "", fun _ => none, fun _ _ => false, fun _ => ""⟩

/-- The names every object inherits. -/
def objectPrototype : List String :=
  ["constructor", "__defineGetter__", "__defineSetter__", "hasOwnProperty", "__lookupGetter__",
    "__lookupSetter__", "isPrototypeOf", "propertyIsEnumerable", "toString", "valueOf",
    "__proto__", "toLocaleString"]

def Thrown.text (engine : Engine) : Thrown → String
  | .error message => message
  | .rangeError message => message
  | .native e => engine.message e

namespace Number

instance (n : Nat) : OfNat Number n := ⟨.finite n⟩

/-- `Number.isInteger`. -/
def isInteger : Number → Bool
  | .finite q => q.den = 1
  | .infinite _ => false

/-- `Number.isSafeInteger`. -/
def isSafeInteger : Number → Bool
  | .finite q => q.den = 1 ∧ q.num.natAbs ≤ 2 ^ 53 - 1
  | .infinite _ => false

/-- The integer part of an integer number. -/
def toInt : Number → Int
  | .finite q => q.num
  | .infinite _ => 0

def lt : Number → Number → Bool
  | .finite p, .finite q => p < q
  | .infinite negative, .finite _ => negative
  | .finite _, .infinite negative => !negative
  | .infinite n, .infinite m => n && !m

end Number

/-! ## Truth and equality -/

def truthy : JsValue → Bool
  | none | some .null => false
  | some (.bool b) => b
  | some (.num n) => n ≠ 0
  | some (.str s) => s ≠ ""
  | some (.arr _) | some (.obj _) => true

/-- `===` between values from different places. -/
def strictEq : JsValue → JsValue → Bool
  | none, none => true
  | some .null, some .null => true
  | some (.bool a), some (.bool b) => a = b
  | some (.num a), some (.num b) => a = b
  | some (.str a), some (.str b) => a = b
  | _, _ => false

/-- A `Set` of values, in insertion order. -/
def insertValue (set : List Json) (v : Json) : List Json :=
  if set.any fun w => strictEq (some w) (some v) then set else set ++ [v]

def setOf (items : List Json) : List Json := items.foldl insertValue []

def hasValue (set : List Json) (v : Json) : Bool := set.any fun w => strictEq (some w) (some v)

/-! ## Properties -/

/-- The code units of a text; a half of a surrogate pair stands as a replacement character. -/
def codeUnits (s : String) : List Char :=
  s.toList.flatMap fun c => if c.toNat < 0x10000 then [c] else ['\uFFFD', '\uFFFD']

/-- The index that a property name denotes. -/
def index? (size : Nat) (key : String) : Option Nat := (List.range size).find? fun i => i.repr = key

/-- The first entry with this name. -/
def fieldOf (fields : List (String × Json)) (key : String) : JsValue :=
  (fields.find? fun p => p.1 = key).map Prod.snd

def ownProperty : Json → String → JsValue
  | .obj fields, key => fieldOf fields key
  | .arr items, key =>
    if key = "length" then some (.num (.finite items.length))
    else (index? items.length key).bind fun i => items[i]?
  | .str s, key =>
    if key = "length" then some (.num (.finite (codeUnits s).length))
    else (index? (codeUnits s).length key).bind fun i =>
      (codeUnits s)[i]?.map fun c => .str (String.singleton c)
  | _, _ => none

def inherited (engine : Engine) : Json → String → Bool
  | .obj _, key => key ∈ objectPrototype
  | v, key => engine.inherits v key

/-- `v[key]` for a value that is neither `null` nor `undefined`. A function or an object of a
prototype reads like an empty object. -/
def property (engine : Engine) (v : Json) (key : String) : JsValue :=
  match ownProperty v key with
  | some w => some w
  | none => if inherited engine v key then some (.obj []) else none

/-- `v[key]`. -/
def getProperty (engine : Engine) (v : JsValue) (key : String) : Except Thrown JsValue :=
  match v with
  | none | some .null => .error (.native .typeError)
  | some w => .ok (property engine w key)

/-- `key in v`. -/
def hasProperty (engine : Engine) (v : JsValue) (key : String) : Except Thrown Bool :=
  match v with
  | some (.obj fields) => .ok (property engine (.obj fields) key).isSome
  | some (.arr items) => .ok (property engine (.arr items) key).isSome
  | _ => .error (.native .typeError)

/-- The entries of the enumerable properties of a value that is neither `null` nor `undefined`. -/
def entriesOf : Json → List (String × Json)
  | .obj fields => fields
  | .arr items => items.zipIdx.map fun p => (p.2.repr, p.1)
  | .str s => (codeUnits s).zipIdx.map fun p => (p.2.repr, .str (String.singleton p.1))
  | _ => []

/-- `Object.keys(v)`. -/
def keys (v : JsValue) : Except Thrown (List String) :=
  match v with
  | none | some .null => .error (.native .typeError)
  | some w => .ok ((entriesOf w).map Prod.fst)

/-! ## Text and numbers -/

mutual

/-- `String(v)` of a JSON value. A `toString` of the object's own is no function. -/
def Json.text (engine : Engine) : Json → Except Thrown String
  | .null => .ok "null"
  | .bool b => .ok (if b then "true" else "false")
  | .num n => .ok (engine.numberToString n)
  | .str s => .ok s
  | .arr items => do
    let texts ← Json.texts engine items
    return ",".intercalate texts
  | .obj fields =>
    if (fieldOf fields "toString").isSome then .error (.native .typeError)
    else .ok "[object Object]"

/-- The texts that `join` puts together. -/
def Json.texts (engine : Engine) : List Json → Except Thrown (List String)
  | [] => .ok []
  | .null :: items => do return "" :: (← Json.texts engine items)
  | item :: items => do return (← Json.text engine item) :: (← Json.texts engine items)

end

def text (engine : Engine) : JsValue → Except Thrown String
  | none => .ok "undefined"
  | some v => v.text engine

/-- `Number(v)`, `none` for `NaN`. -/
def toNumber (engine : Engine) : JsValue → Except Thrown (Option Number)
  | none => .ok none
  | some .null => .ok (some 0)
  | some (.bool b) => .ok (some (if b then 1 else 0))
  | some (.num n) => .ok (some n)
  | some (.str s) => .ok (engine.stringToNumber s)
  | some v => do return engine.stringToNumber (← v.text engine)

/-- `v < w` for numbers; `NaN` is never less. -/
def lessThan : Option Number → Option Number → Bool
  | some n, some m => n.lt m
  | _, _ => false

def isDecimalDigit (c : Char) : Bool := '0' ≤ c ∧ c ≤ '9'

/-- The value of a nonempty run of decimal digits. -/
def digits? (cs : List Char) : Option Nat :=
  if cs ≠ [] ∧ cs.all isDecimalDigit then some (Nat.ofDigitChars 10 cs 0) else none

/-- A text that matches `/^-?\d+$/`, as a big integer. -/
def decimalText? (s : String) : Option Int :=
  match s.toList with
  | '-' :: cs => (digits? cs).map fun n => -(n : Int)
  | cs => (digits? cs).map Int.ofNat

/-- White space and line ends of the language. -/
def isWhiteSpace (c : Char) : Bool :=
  c.toNat ∈ [0x09, 0x0A, 0x0B, 0x0C, 0x0D, 0x20, 0xA0, 0x1680, 0x2028, 0x2029, 0x202F, 0x205F,
    0x3000, 0xFEFF] ∨ (0x2000 ≤ c.toNat ∧ c.toNat ≤ 0x200A)

def trim (cs : List Char) : List Char :=
  ((cs.dropWhile isWhiteSpace).reverse.dropWhile isWhiteSpace).reverse

theorem trim_eq (cs : List Char) :
    trim cs = (cs.dropWhile isWhiteSpace).rdropWhile isWhiteSpace := rfl

theorem trim_trim (cs : List Char) : trim (trim cs) = trim cs := by
  have hfront : (trim cs).dropWhile isWhiteSpace = trim cs := by
    rw [List.dropWhile_eq_self_iff]
    intro hlength
    have hstart : trim cs <+: cs.dropWhile isWhiteSpace := List.rdropWhile_prefix isWhiteSpace _
    rw [hstart.getElem hlength]
    exact List.dropWhile_get_zero_not _ _ (hstart.length_le.trans_lt' hlength)
  rw [trim, hfront, trim_eq]
  exact List.rdropWhile_idempotent _ _

/-- The value of a digit in a base up to 16. -/
def digitIn? (base : Nat) (c : Char) : Option Nat :=
  let d := if '0' ≤ c ∧ c ≤ '9' then some (c.toNat - 48)
    else if 'a' ≤ c ∧ c ≤ 'f' then some (c.toNat - 87)
    else if 'A' ≤ c ∧ c ≤ 'F' then some (c.toNat - 55)
    else none
  d.filter (· < base)

/-- The value of a nonempty run of digits in a base up to 16. -/
def digitsIn? (base : Nat) (cs : List Char) : Option Nat :=
  if cs = [] then none
  else cs.foldl (fun n c => do return (← n) * base + (← digitIn? base c)) (some 0)

/-- `JSON.stringify` of a character of a text. -/
def quoteChar (c : Char) : List Char :=
  match c with
  | '"' => ['\\', '"']
  | '\\' => ['\\', '\\']
  | '\n' => ['\\', 'n']
  | '\r' => ['\\', 'r']
  | '\t' => ['\\', 't']
  | _ =>
    if c.toNat = 8 then ['\\', 'b']
    else if c.toNat = 12 then ['\\', 'f']
    else if c.toNat < 32 then
      ['\\', 'u', '0', '0', Nat.digitChar (c.toNat / 16), Nat.digitChar (c.toNat % 16)]
    else [c]

/-- `JSON.stringify` of a text. -/
def quote (s : String) : String :=
  String.ofList ('"' :: s.toList.flatMap quoteChar ++ ['"'])

/-- `BigInt` of a text. -/
def bigIntText? (s : String) : Option Int :=
  match trim s.toList with
  | [] => some 0
  | '0' :: 'x' :: cs | '0' :: 'X' :: cs => (digitsIn? 16 cs).map Int.ofNat
  | '0' :: 'o' :: cs | '0' :: 'O' :: cs => (digitsIn? 8 cs).map Int.ofNat
  | '0' :: 'b' :: cs | '0' :: 'B' :: cs => (digitsIn? 2 cs).map Int.ofNat
  | '-' :: cs => (digits? cs).map fun n => -(n : Int)
  | '+' :: cs => (digits? cs).map Int.ofNat
  | cs => (digits? cs).map Int.ofNat

/-- `BigInt` of a text or the error it throws. -/
def bigIntOfText (s : String) : Except Thrown Int :=
  match bigIntText? s with
  | some n => .ok n
  | none => .error (.native .syntaxError)

/-- `BigInt(v)`. -/
def bigInt (engine : Engine) : JsValue → Except Thrown Int
  | none | some .null => .error (.native .typeError)
  | some (.bool b) => .ok (if b then 1 else 0)
  | some (.num n) => if n.isInteger then .ok n.toInt else .error (.native .rangeError)
  | some (.str s) => bigIntOfText s
  | some v => do bigIntOfText (← v.text engine)

end JavaScript
