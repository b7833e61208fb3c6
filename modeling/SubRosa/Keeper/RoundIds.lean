import SubRosa.Library.JavaScript

/-!
# Specifications of round ids

`parseRoundIdSpec`: the ids a text such as `1,2,5` or `1-5` names. A set lists
its members in the order in which they were added.
-/

namespace SubRosa.Keeper

open JavaScript

/-- `ids.add(i)`. -/
def addId (ids : List Int) (i : Int) : List Int := if i ∈ ids then ids else ids ++ [i]

/-- `for (let i = a; i <= b; i++) ids.add(i)`. -/
def addRange (ids : List Int) (a b : Int) : List Int :=
  (List.range (b + 1 - a).toNat).foldl (fun ids (k : Nat) => addId ids (a + k)) ids

/-- `part.split("-", 2)`, for a part with a dash. -/
def splitDash (part : List Char) : List Char × List Char :=
  (part.takeWhile (· ≠ '-'), ((part.dropWhile (· ≠ '-')).drop 1).takeWhile (· ≠ '-'))

/-- `BigInt(s.trim())`. -/
def boundOf (cs : List Char) : Except Thrown Int := bigIntOfText (String.ofList (trim cs))

def addPart (ids : List Int) (part : List Char) : Except Thrown (List Int) := do
  if '-' ∈ part then
    let (a, b) := splitDash part
    let a ← boundOf a
    let b ← boundOf b
    return addRange ids a b
  else
    return addId ids (← bigIntOfText (String.ofList part))

/-- `spec.split(",").map((s) => s.trim()).filter(Boolean)`. -/
def partsOf (spec : String) : List (List Char) :=
  ((spec.toList.splitOn ',').map trim).filter (· ≠ [])

def parseRoundIdSpec (spec : String) : Except Thrown (List Int) := do
  let ids ← (partsOf spec).foldlM addPart []
  return ids.mergeSort (· ≤ ·)

end SubRosa.Keeper
