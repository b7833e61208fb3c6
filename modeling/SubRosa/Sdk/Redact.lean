import SubRosa.Library.JsonFields

/-!
# Redaction of a receipt

`redact.ts`: the copy of a receipt that can be shown in public. Bid entries,
nested objects, arrays and the top level each have their own rules. A field
named `__proto__` is one more field here; in the source its assignment sets the
prototype of the copy, which then has no field of that name.
-/

namespace SubRosa.Sdk

open JavaScript

/-- `REDACTED`. -/
def redacted : Json := .str "<redacted>"

/-- `SENSITIVE_KEYS`. -/
def sensitiveKeys : List String :=
  ["bidder", "bidders", "operator", "contractid", "contract_id",
    "winner", "appraiser", "memo", "txhash", "tx_hash",
    "ciphertext", "auditorblob", "auditor_blob", "accountid",
    "account_id", "roundid", "round_id", "itemref", "item_ref",
    "revealround", "reveal_round"]

/-- Of the letters beyond ASCII only the Kelvin sign has an ASCII letter in lower case, a `k`, and
no name of the list has a `k`. -/
def isSensitiveKey (key : String) : Bool :=
  String.ofList (key.toList.map Char.toLower) ∈ sensitiveKeys

def isNull (v : Json) : Bool := strictEq (some v) (some .null)

/-- `Object.entries(v)`. -/
def entries (v : Json) : Except Thrown (List (String × Json)) :=
  match v with
  | .null => .error (.native .typeError)
  | v => .ok (entriesOf v)

section

-- the paths to preserve
variable (keep : List String)

mutual

/-- Objects and arrays below `path`; the fields of an object are those of `redactObject`. -/
def redactValue (path : String) : Json → Json
  | .obj fields => if path ∈ keep then .obj fields else .obj (redactFields path fields)
  | .arr items => .arr (redactArray path 0 items)
  | v => v

def redactFields (path : String) : List (String × Json) → List (String × Json)
  | [] => []
  | (key, val) :: fields =>
    let childPath := if path = "" then key else path ++ "." ++ key
    (key, if childPath ∈ keep then val
      else if isSensitiveKey key && !isNull val then redacted
      else redactValue childPath val) :: redactFields path fields

def redactArray (path : String) (i : Nat) : List Json → List Json
  | [] => []
  | item :: items =>
    let itemPath := s!"{path}[{i}]"
    (if itemPath ∈ keep then item else redactValue itemPath item) :: redactArray path (i + 1) items

end

def redactObject (fields : List (String × Json)) (path : String) : Json :=
  redactValue keep path (.obj fields)

/-- One field of a bid entry. -/
def redactBidField (path : String) (p : String × Json) : String × Json :=
  let childPath := path ++ "." ++ p.1
  (p.1, if childPath ∈ keep then p.2
    else if (p.1 = "ciphertext" ∨ p.1 = "auditorBlob") ∧ isNull p.2 = false then redacted
    else match p.2 with
      | .obj fields => redactObject keep fields childPath
      | v => v)

def redactBidEntry (entry : Json) (path : String) : Except Thrown Json :=
  if path ∈ keep then .ok entry
  else do
    let fields ← entries entry
    return .obj (fields.map (redactBidField keep path))

def placeholder (i : Nat) : String := s!"<redacted:{i}>"

def isKept (bidKey : String) : Bool :=
  "bids." ++ bidKey ∈ keep || keep.any fun p => ("bids." ++ bidKey ++ ".").isPrefixOf p

/-- The bids from index `i` on, added to those before. -/
def redactBids (out : List (String × Json)) (i : Nat) :
    List (String × Json) → Except Thrown (List (String × Json))
  | [] => .ok out
  | (bidKey, entry) :: bids => do
    let newKey := if isKept keep bidKey then bidKey else placeholder i
    let redactedEntry ← redactBidEntry keep entry ("bids." ++ bidKey)
    redactBids (setField out newKey redactedEntry) (i + 1) bids

/-- A field of the receipt without a rule of its own. -/
def redactOtherField (key : String) (val : Json) : Json :=
  if key ∈ keep then val
  else if isSensitiveKey key then redacted
  else redactValue keep key val

/-- The list of bidders becomes a list of placeholders. -/
def redactRootField (key : String) (val : Json) : Json :=
  match val with
  | .arr bidders =>
    if key = "bidders" then
      if "bidders" ∈ keep then .arr bidders
      else .arr ((List.range bidders.length).map fun i => .str (placeholder i))
    else redactOtherField keep key (.arr bidders)
  | val => redactOtherField keep key val

def redactRoot (key : String) (val : Json) : Except Thrown Json :=
  if key = "bids" then do
    let bids ← entries val
    if "bids" ∈ keep then return val
    else return .obj (← redactBids keep [] 0 bids)
  else return redactRootField keep key val

def redactReceipt (receipt : Json) : Except Thrown Json := do
  let fields ← entries receipt.copy
  let root ← fields.mapM fun p => do return (p.1, ← redactRoot keep p.1 p.2)
  return .obj root

end

end SubRosa.Sdk
