import SubRosa.Library.Double
import SubRosa.OpenX402.Amounts
import SubRosa.Sdk.Templates

/-!
# OpenX402 offers

`integrations/openx402`: an offer from its draft, the proposal that is sealed
for it and the reader of what was revealed; the checks of a revealed offer and
the choice among several. A number is `none` when it is `NaN`. `localeCompare`
is a parameter.
-/

namespace SubRosa.OpenX402

open JavaScript Sdk

def openX402OfferVersion : String := "1"

structure OpenX402Resource where
  id : String
  provider : String
  network : String
  asset : String
  payTo : String
  metadataDigest : String
  resourceDigest : String
  deriving DecidableEq

structure OpenX402Offer where
  bidder : String
  provider : String
  resourceId : String
  resourceDigest : String
  quotedAmountBaseUnits : String
  network : String
  asset : String
  payTo : String
  estimatedResponseSeconds : Option Number
  terms : String
  validUntil : Option Number
  metadataDigest : Option String
  deriving DecidableEq

structure OpenX402OfferDraft where
  quotedAmount : String
  estimatedResponseSeconds : String
  terms : String
  validityMinutes : String

/-! ## From a draft to a sealed proposal -/

section

variable (engine : Engine)

/-- `Number.isSafeInteger(x) && x >= 1`. -/
def isPositiveCount (x : Option Number) : Bool := Number.isSafe x && !Number.less x (some 1)

/-- `now` is the given time, or that of the clock. -/
def mapOpenX402Offer (draft : OpenX402OfferDraft) (resource : OpenX402Resource) (bidder : String)
    (decimals : Nat) (now : Option Number) : Except Thrown OpenX402Offer := do
  let responseSeconds := engine.stringToNumber draft.estimatedResponseSeconds
  let validityMinutes := engine.stringToNumber draft.validityMinutes
  throwIf (¬ isPositiveCount responseSeconds)
    "Estimated response time must be a positive whole number of seconds"
  throwIf (¬ isPositiveCount validityMinutes) "Validity must be a positive whole number of minutes"
  throwIf (isBlank draft.terms) "Service terms are required"
  let quoted ← amountToBaseUnits draft.quotedAmount decimals
  return {
    bidder
    provider := resource.provider
    resourceId := resource.id
    resourceDigest := resource.resourceDigest
    quotedAmountBaseUnits := quoted
    network := resource.network
    asset := resource.asset
    payTo := resource.payTo
    estimatedResponseSeconds := responseSeconds
    terms := trimText draft.terms
    validUntil := Number.add now (Number.mul validityMinutes (some 60))
    metadataDigest := some resource.metadataDigest }

/-- `...(digest ? { metadataDigest: digest } : {})`. -/
def digestField : Option String → List (String × Json)
  | some digest => if digest = "" then [] else [("metadataDigest", .str digest)]
  | none => []

def OpenX402Offer.metadata (offer : OpenX402Offer) : List (String × Json) :=
  [("openX402OfferVersion", .str openX402OfferVersion), ("provider", .str offer.provider),
    ("resourceId", .str offer.resourceId), ("resourceDigest", .str offer.resourceDigest),
    ("quotedAmountBaseUnits", .str offer.quotedAmountBaseUnits), ("network", .str offer.network),
    ("asset", .str offer.asset), ("payTo", .str offer.payTo),
    ("estimatedResponseSeconds", .str (Number.text engine offer.estimatedResponseSeconds)),
    ("validUntil", .str (Number.text engine offer.validUntil))] ++ digestField offer.metadataDigest

def openX402OfferToProposal (offer : OpenX402Offer) : SealedProposal where
  timelineDays := 1
  approach := offer.terms
  totalAmount := none
  currency := none
  deliverables := none
  milestones := none
  metadata := some (.obj (offer.metadata engine))

/-! ## From an envelope to an offer -/

/-- A text of the metadata that is not empty; metadata are records of texts. -/
def requiredMetadata (metadata : JsValue) (key : String) : Except Thrown String :=
  match optionalGet engine metadata key with
  | some (.str s) =>
    if s = "" then .error (.error s!"OpenX402 offer metadata is missing {key}") else .ok s
  | _ => .error (.error s!"OpenX402 offer metadata is missing {key}")

/-- `metadata?.metadataDigest`, when it is not empty. -/
def digestOf (metadata : JsValue) : Option String :=
  match optionalGet engine metadata "metadataDigest" with
  | some (.str s) => if s = "" then none else some s
  | _ => none

def openX402OfferFromProposal (proposal : SealedProposal) (bidder : String) :
    Except Thrown OpenX402Offer := do
  let required := requiredMetadata engine proposal.metadata
  throwIf ((← required "openX402OfferVersion") ≠ openX402OfferVersion)
    "Unsupported OpenX402 offer version"
  let estimatedResponseSeconds := engine.stringToNumber (← required "estimatedResponseSeconds")
  let validUntil := engine.stringToNumber (← required "validUntil")
  throwIf (¬ isPositiveCount estimatedResponseSeconds) "OpenX402 offer response time is invalid"
  throwIf (¬ isPositiveCount validUntil) "OpenX402 offer validity is invalid"
  return {
    bidder
    provider := ← required "provider"
    resourceId := ← required "resourceId"
    resourceDigest := ← required "resourceDigest"
    quotedAmountBaseUnits := ← required "quotedAmountBaseUnits"
    network := ← required "network"
    asset := ← required "asset"
    payTo := ← required "payTo"
    estimatedResponseSeconds
    terms := proposal.approach
    validUntil
    metadataDigest := digestOf engine proposal.metadata }

def decodeOpenX402OfferEnvelope (timesTenMillion : Number → Number)
    (isValidEd25519PublicKey : String → Bool) (bytes : Bytes) (bidder : String) :
    Except Thrown OpenX402Offer := do
  let envelope ← decodePayloadEnvelope bytes
  let proposal ← decodeSealedProposal engine timesTenMillion isValidEd25519PublicKey
      envelope.payload
  let offer ← openX402OfferFromProposal engine proposal bidder
  throwIf (envelope.amount.map toString ≠ some offer.quotedAmountBaseUnits)
    "Sealed amount does not match the OpenX402 offer quote"
  return offer

end

/-! ## The checks of a revealed offer -/

inductive OpenX402OfferCode
  | valid
  | resourceNotDiscovered
  | resourceChanged
  | invalidAmount
  | aboveAllowance
  | networkMismatch
  | assetMismatch
  | payeeMismatch
  | expiredOffer
  deriving DecidableEq

structure OpenX402OfferValidation where
  valid : Bool
  code : OpenX402OfferCode
  message : String
  deriving DecidableEq

def invalid (code : OpenX402OfferCode) (message : String) : OpenX402OfferValidation :=
  ⟨false, code, message⟩

/-- The checks once the amount is known to be in the allowance. -/
def validateTerms (offer : OpenX402Offer) (resource : OpenX402Resource) (now : Option Number) :
    OpenX402OfferValidation :=
  if offer.network ≠ resource.network then
    invalid .networkMismatch "Offer network does not match discovery"
  else if offer.asset ≠ resource.asset then
    invalid .assetMismatch "Offer asset does not match discovery"
  else if offer.payTo ≠ resource.payTo then
    invalid .payeeMismatch "Offer payee does not match discovery"
  else if Number.lessEq offer.validUntil now then
    invalid .expiredOffer "Offer validity deadline has passed"
  else ⟨true, .valid, "Valid revealed offer"⟩

def validateOpenX402Offer (offer : OpenX402Offer) (resources : List OpenX402Resource)
    (maximumPaymentBaseUnits : String) (now : Option Number) :
    Except Thrown OpenX402OfferValidation :=
  match resources.find? fun candidate => candidate.id = offer.resourceId with
  | none => .ok (invalid .resourceNotDiscovered "Resource was not part of discovery")
  | some resource =>
    if resource.resourceDigest ≠ offer.resourceDigest then
      .ok (invalid .resourceChanged
        "Discovered resource metadata changed after the offer was sealed")
    else
      match bigIntText? offer.quotedAmountBaseUnits with
      | none => .ok (invalid .invalidAmount "Quoted amount is not valid base-unit data")
      | some amount =>
        if amount ≤ 0 then .ok (invalid .invalidAmount "Quoted amount must be positive")
        else do
          let maximum ← bigIntOfText maximumPaymentBaseUnits
          if maximum < amount then
            return invalid .aboveAllowance "Quoted amount exceeds the buyer spending policy"
          else return validateTerms offer resource now

/-! ## The choice -/

structure EvaluatedOpenX402Offer extends OpenX402Offer where
  validation : OpenX402OfferValidation
  deriving DecidableEq

section

variable (localeCompare : String → String → Ordering)

/-- The comparator, for offers with their amounts. -/
def compareOffers (left right : Int × EvaluatedOpenX402Offer) : Ordering :=
  ((compare left.1 right.1).then (localeCompare left.2.resourceId right.2.resourceId)).then
    (localeCompare left.2.bidder right.2.bidder)

/-- The comparator is called for two offers, and reads both amounts. -/
def lowestValidOpenX402Offer (offers : List EvaluatedOpenX402Offer) :
    Except Thrown (Option EvaluatedOpenX402Offer) :=
  match offers.filter fun offer => offer.validation.valid with
  | [] => .ok none
  | [offer] => .ok (some offer)
  | valid => do
    let keyed ← valid.mapM fun offer => do
      return (← bigIntOfText offer.quotedAmountBaseUnits, offer)
    let sorted := keyed.mergeSort fun left right => compareOffers localeCompare left right ≠ .gt
    return sorted.head?.map Prod.snd

structure OpenX402Selection where
  evaluated : List EvaluatedOpenX402Offer
  selected : Option EvaluatedOpenX402Offer
  policyId : String
  deriving DecidableEq

/-- `evaluateAndSelectOpenX402Offer` with the default policy. -/
def evaluateAndSelectOpenX402Offer (offers : List OpenX402Offer)
    (resources : List OpenX402Resource) (maximumPaymentBaseUnits : String)
    (now : Option Number) : Except Thrown OpenX402Selection := do
  let evaluated ← offers.mapM fun offer => do
    return { offer with
      validation := ← validateOpenX402Offer offer resources maximumPaymentBaseUnits now }
  let selected ← lowestValidOpenX402Offer localeCompare evaluated
  return { evaluated, selected, policyId := "lowest-valid-offer-v1" }

end

end SubRosa.OpenX402
