import SubRosa.Library.Utf8
import SubRosa.Sdk.Serialize
import SubRosa.Sdk.VerifyV2

/-!
# Sealed proposals

`templates.ts`: the JSON text of a proposal, which its participant seals, and
the reader of it. Keys are checked by a package; a product with `10_000_000` is
rounded by the engine.
-/

namespace SubRosa.Sdk

open JavaScript

structure SealedProposalMilestone where
  title : String
  description : Option String
  amount : Number
  /-- Stellar account that should receive this milestone. -/
  receiver : Option String
  delivery : Option String
  /-- `Record<string, string> | undefined`. -/
  metadata : JsValue

structure SealedProposal where
  timelineDays : Number
  approach : String
  /-- Optional total; receipt-only mode does not escrow it. -/
  totalAmount : Option Number
  currency : Option String
  deliverables : Option (List String)
  milestones : Option (List SealedProposalMilestone)
  /-- `Record<string, string> | undefined`. -/
  metadata : JsValue

/-- `...(v === undefined ? {} : { [key]: v })`. -/
def optionalField (key : String) (v : JsValue) : List (String × Json) :=
  (v.map fun w => (key, w)).toList

def SealedProposalMilestone.entries (m : SealedProposalMilestone) : List (String × Json) :=
  [("title", .str m.title)] ++ optionalField "description" (m.description.map .str) ++
    [("amount", .num m.amount)] ++ optionalField "receiver" (m.receiver.map .str) ++
    optionalField "delivery" (m.delivery.map .str) ++ optionalField "metadata" m.metadata

/-- The milestone as an object. -/
def SealedProposalMilestone.json (m : SealedProposalMilestone) : Json := .obj m.entries

def proposalVersion : Number := 1

def SealedProposal.entries (p : SealedProposal) : List (String × Json) :=
  [("version", .num proposalVersion), ("timelineDays", .num p.timelineDays),
      ("approach", .str p.approach)] ++
    optionalField "totalAmount" (p.totalAmount.map .num) ++
    optionalField "currency" (p.currency.map .str) ++
    optionalField "deliverables" (p.deliverables.map fun entries => .arr (entries.map .str)) ++
    optionalField "milestones"
      (p.milestones.map fun ms => .arr (ms.map SealedProposalMilestone.json)) ++
    optionalField "metadata" p.metadata

/-- The value that is written for a proposal. -/
def SealedProposal.json (p : SealedProposal) : Json := .obj p.entries

/-! ## Checks and normal forms -/

/-- `s.trim()`. -/
def trimText (s : String) : String := String.ofList (trim s.toList)

/-- `!s.trim()`. -/
def isBlank (s : String) : Bool := trimText s = ""

def canonicalMetadata : JsValue → JsValue
  | some v =>
    if truthy (some v) then some (.obj (fromEntries (sortEntries (entriesOf v)))) else none
  | none => none

/-- A positive amount in units of `1e-7`, rounded. -/
def safeAmountUnits (timesTenMillion : Number → Number) (value : JsValue) (label : String) :
    Except Thrown Int :=
  match value with
  | some (.num (.finite q)) =>
    if q ≤ 0 then .error (.error s!"{label} must be a positive number")
    else
      match timesTenMillion (.finite q) with
      | .finite x =>
        let units := ⌊x + 1 / 2⌋
        if (Number.finite units).isSafeInteger then .ok units
        else .error (.error s!"{label} is outside the safe amount range")
      | .infinite _ => .error (.error s!"{label} is outside the safe amount range")
  | _ => .error (.error s!"{label} must be a positive number")

/-- Some value of the metadata is no string. -/
def hasOtherValue : JsValue → Bool
  | some v => truthy (some v) && (entriesOf v).any fun p => !isString (some p.2)
  | none => false

def validateMetadata (metadata : JsValue) (label : String) : Except Thrown Unit :=
  throwIf (hasOtherValue metadata) s!"{label} metadata values must be strings"

def normalizeDeliverables (deliverables : Option (List String)) :
    Except Thrown (Option (List String)) :=
  match deliverables with
  | none => .ok none
  | some entries =>
    if 20 < entries.length ∨ entries.any isBlank then
      .error (.error "deliverables must be a non-empty string array with at most 20 entries")
    else .ok (some (entries.map trimText))

/-- An optional text of a milestone, trimmed. -/
def optionalText (v : JsValue) (message : String) : Except Thrown (Option String) :=
  match v with
  | none => .ok none
  | some (.str s) => .ok (some (trimText s))
  | some _ => .error (.error message)

section

variable (engine : Engine) (timesTenMillion : Number → Number)
  (isValidEd25519PublicKey : String → Bool)

/-- `undefined` or a valid key; a value that is no text is no key. -/
def milestoneReceiver (v : JsValue) (message : String) : Except Thrown (Option String) :=
  match v with
  | none => .ok none
  | some (.str s) => if isValidEd25519PublicKey s then .ok (some s) else .error (.error message)
  | some _ => .error (.error message)

/-- A title with something in it, trimmed. -/
def milestoneTitle (v : JsValue) (message : String) : Except Thrown String :=
  match v with
  | some (.str s) => if isBlank s then .error (.error message) else .ok (trimText s)
  | _ => .error (.error message)

/-- The amount once it has been checked. -/
def amountOf : JsValue → Number
  | some (.num n) => n
  | _ => 0

/-- A milestone in normal form, and the units of its amount. -/
def normalizeMilestone (index : Nat) (milestone : Json) :
    Except Thrown (SealedProposalMilestone × Int) := do
  let name := s!"milestone {index + 1}"
  throwIf (¬ isObject (some milestone)) s!"{name} must be an object"
  let field := property engine milestone
  let title ← milestoneTitle (field "title") s!"{name} title must not be empty"
  let description ← optionalText (field "description") s!"{name} description must be a string"
  let receiver ← milestoneReceiver isValidEd25519PublicKey (field "receiver")
    s!"{name} receiver must be a valid Stellar public key"
  let delivery ← optionalText (field "delivery") s!"{name} delivery must be a string"
  validateMetadata (field "metadata") name
  let units ← safeAmountUnits timesTenMillion (field "amount") s!"{name} amount"
  return ({ title, description, amount := amountOf (field "amount"), receiver, delivery,
            metadata := canonicalMetadata (field "metadata") }, units)

/-- The total is `undefined` in `none` and no number in `some none`. -/
def normalizeMilestones (milestones : JsValue) (totalAmount : Option (Option Number)) :
    Except Thrown (Option (List SealedProposalMilestone)) :=
  match milestones with
  | none => .ok none
  | some (.arr items) => do
    throwIf (items.length < 1 ∨ 10 < items.length)
      "milestones must contain between 1 and 10 entries"
    throwIf (totalAmount = none) "totalAmount is required when milestones are provided"
    let totalUnits ← safeAmountUnits timesTenMillion (totalAmount.join.map .num) "totalAmount"
    let normalized ← items.zipIdx.mapM fun p =>
      normalizeMilestone engine timesTenMillion isValidEd25519PublicKey p.2 p.1
    throwIf ((normalized.map Prod.snd).sum ≠ totalUnits)
      "sum(milestone amounts) must equal totalAmount"
    return some (normalized.map Prod.fst)
  | some _ => .error (.error "milestones must contain between 1 and 10 entries")

/-! ## Writing and reading -/

/-- `Number.isSafeInteger(n) && n >= 1`. -/
def isDayCount (n : Number) : Bool := n.isSafeInteger && !n.lt 1

/-- A total is checked when there is one. -/
def checkTotal (totalAmount : Option Number) : Except Thrown Unit :=
  match totalAmount with
  | none => .ok ()
  | some total => do
    let _ ← safeAmountUnits timesTenMillion (some (.num total)) "totalAmount"
    return ()

def encodeSealedProposal (proposal : SealedProposal) : Except Thrown Bytes := do
  throwIf (¬ isDayCount proposal.timelineDays) "timelineDays must be a positive safe integer"
  throwIf (isBlank proposal.approach) "approach must not be empty"
  checkTotal timesTenMillion proposal.totalAmount
  throwIf (proposal.currency.any isBlank) "currency must not be empty"
  validateMetadata proposal.metadata "proposal"
  let deliverables ← normalizeDeliverables proposal.deliverables
  let milestones ← normalizeMilestones engine timesTenMillion isValidEd25519PublicKey
    (proposal.milestones.map fun ms => .arr (ms.map SealedProposalMilestone.json))
    (proposal.totalAmount.map some)
  let value : SealedProposal :=
    { proposal with currency := proposal.currency.map trimText, deliverables, milestones,
                    metadata := canonicalMetadata proposal.metadata }
  return textEncode (jsonStringify engine value.json)

def readDays : JsValue → Except Thrown Number
  | some (.num n) =>
    if isDayCount n then .ok n else .error (.error "proposal timelineDays is invalid")
  | _ => .error (.error "proposal timelineDays is invalid")

/-- A text with something in it. -/
def readFilled (message : String) : JsValue → Except Thrown String
  | some (.str s) => if isBlank s then .error (.error message) else .ok s
  | _ => .error (.error message)

def readTotal : JsValue → Except Thrown (Option Number)
  | none => .ok none
  | some (.num (.finite q)) => .ok (some (.finite q))
  | _ => .error (.error "proposal totalAmount is invalid")

def readCurrency : JsValue → Except Thrown (Option String)
  | none => .ok none
  | some v => do return some (← readFilled "proposal currency is invalid" (some v))

def readDeliverables : JsValue → Except Thrown (Option (List String))
  | none => .ok none
  | some (.arr items) => do
    return some (← items.mapM fun entry =>
      readFilled "proposal deliverables are invalid" (some entry))
  | _ => .error (.error "proposal deliverables are invalid")

def isArray : JsValue → Bool
  | some (.arr _) => true
  | _ => false

/-- An object, and no array, of texts. -/
def isRecord : JsValue → Bool
  | some (.obj fields) => fields.all fun p => isString (some p.2)
  | _ => false

def decodeSealedProposal (payload : Bytes) : Except Thrown SealedProposal := do
  let parsed ← jsonParse engine (textDecode payload)
  throwIf (¬ isObject (some parsed)) "proposal payload must be an object"
  let value := property engine parsed
  throwIf (¬ strictEq (value "version") (some (.num proposalVersion)))
    "unsupported proposal version"
  let timelineDays ← readDays (value "timelineDays")
  let approach ← readFilled "proposal approach is invalid" (value "approach")
  let totalAmount ← readTotal (value "totalAmount")
  let currency ← readCurrency (value "currency")
  let deliverables ← readDeliverables (value "deliverables")
  throwIf (value "milestones" ≠ none ∧ ¬ isArray (value "milestones"))
    "proposal milestones are invalid"
  throwIf (value "metadata" ≠ none ∧ ¬ isRecord (value "metadata")) "proposal metadata is invalid"
  let milestones ← normalizeMilestones engine timesTenMillion isValidEd25519PublicKey
    (value "milestones") (some totalAmount)
  return { timelineDays, approach, totalAmount, currency, deliverables, milestones,
           metadata := value "metadata" }

end

end SubRosa.Sdk
