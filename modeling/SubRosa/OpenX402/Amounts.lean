import SubRosa.Library.DecimalText
import SubRosa.Sdk.Envelope

/-!
# Base units

The decimal amounts of the OpenX402 forms: a text to base units and base units
to a text. A run of digits has as many code units as characters.
-/

namespace SubRosa.OpenX402

open JavaScript Sdk

/-- A text that matches `/^\d+(?:\.\d+)?$/`. -/
def isPlainDecimal (cs : List Char) : Bool :=
  match cs.splitOn '.' with
  | [whole] => decide (Digits whole)
  | [whole, fraction] => decide (Digits whole ∧ Digits fraction)
  | _ => false

/-- `const [whole, fraction = ""] = trimmed.split(".")`. -/
def splitDecimal (cs : List Char) : List Char × List Char :=
  match cs.splitOn '.' with
  | whole :: fraction :: _ => (whole, fraction)
  | [whole] => (whole, [])
  | [] => ([], [])

/-- `cs.padEnd(n, "0")`. -/
def padEnd (cs : List Char) (n : Nat) : List Char := cs ++ List.replicate (n - cs.length) '0'

/-- `cs.padStart(n, "0")`. -/
def padStart (cs : List Char) (n : Nat) : List Char := List.replicate (n - cs.length) '0' ++ cs

/-- `cs || "0"`. -/
def orZero (cs : List Char) : List Char := if cs = [] then ['0'] else cs

def amountToBaseUnits (value : String) (decimals : Nat) : Except Thrown String := do
  let trimmed := trim value.toList
  throwIf (¬ isPlainDecimal trimmed) "Quote must be a positive decimal amount"
  let (whole, fraction) := splitDecimal trimmed
  throwIf (decimals < fraction.length) s!"Quote supports at most {decimals} decimal places"
  let whole ← bigIntOfText (String.ofList whole)
  let fraction ← bigIntOfText (String.ofList (orZero (padEnd fraction decimals)))
  let units := whole * 10 ^ decimals + fraction
  throwIf (units ≤ 0) "Quote must be greater than zero"
  return toString units

/-- `cs.replace(/0+$/, "")`. -/
def stripZeros (cs : List Char) : List Char := cs.rdropWhile (· = '0')

/-- Quotient and remainder of big integers truncate towards zero. -/
def formatBaseUnits (value : String) (decimals : Nat) (currency : String) :
    Except Thrown String := do
  let units ← bigIntOfText value
  let scale := 10 ^ decimals
  let whole := units.tdiv scale
  let fraction := stripZeros (padStart (toString (units.tmod scale)).toList decimals)
  let point := if fraction = [] then "" else "." ++ String.ofList fraction
  return s!"{whole}{point} {currency}"

end SubRosa.OpenX402
