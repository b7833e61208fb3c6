import SubRosa.Library.JsonOrder
import SubRosa.Sdk.Client

/-!
# The session mandate of a bidder agent

`mandate.ts`: what a principal signs for a session key, the bytes that are
signed, and the checks of the agent against the mandate. Keys and signatures
come from a package; a product with `1e7` is rounded by the engine.
-/

namespace SubRosa.Agent

open JavaScript Sdk

/-- What the package for keys computes. -/
structure Keypairs where
  /-- The public key of a secret. -/
  fromSecret : String → Except Thrown String
  verify : String → Bytes → Bytes → Except Thrown Bool

/-- `MANDATE_VERSION`. -/
def mandateVersion : Number := 1

structure SessionMandatePayload where
  version : Number
  principal : String
  sessionKey : String
  contractId : String
  roundId : String
  itemRef : String
  basePriceUsdc : Number
  category : Option String
  maxBidStroops : String
  maxEscrowStroops : String
  /-- Maximum total appraisal spend of the session. -/
  maxAppraisalSpendStroops : String
  /-- Expected price of one appraisal; the agent refuses if the server asks more. -/
  appraisalPriceStroops : String
  commitDeadline : Number
  issuedAt : Number
  expiresAt : Number

structure SessionMandate extends SessionMandatePayload where
  signature : String

/-! ## The signed bytes -/

mutual

def canonical (engine : Engine) : Json → String
  | .null => "null"
  | .bool b => if b then "true" else "false"
  | .num n => numberText engine n
  | .str s => quote s
  | .arr items => "[" ++ ",".intercalate (canonicalItems engine items) ++ "]"
  | .obj fields =>
    let entries := (canonicalFields engine fields).mergeSort fun a b => utf16 a.1 ≤ utf16 b.1
    "\x7b" ++ ",".intercalate (entries.map fun entry => quote entry.1 ++ ":" ++ entry.2) ++ "\x7d"

def canonicalItems (engine : Engine) : List Json → List String
  | [] => []
  | item :: items => canonical engine item :: canonicalItems engine items

def canonicalFields (engine : Engine) : List (String × Json) → List (String × String)
  | [] => []
  | (key, val) :: fields => (key, canonical engine val) :: canonicalFields engine fields

end

/-- The fields of the payload; an absent category is no field. -/
def SessionMandatePayload.json (payload : SessionMandatePayload) : Json :=
  .obj <|
    [("version", .num payload.version), ("principal", .str payload.principal),
      ("sessionKey", .str payload.sessionKey), ("contractId", .str payload.contractId),
      ("roundId", .str payload.roundId), ("itemRef", .str payload.itemRef),
      ("basePriceUsdc", .num payload.basePriceUsdc)] ++
    (payload.category.map fun category => ("category", Json.str category)).toList ++
    [("maxBidStroops", .str payload.maxBidStroops),
      ("maxEscrowStroops", .str payload.maxEscrowStroops),
      ("maxAppraisalSpendStroops", .str payload.maxAppraisalSpendStroops),
      ("appraisalPriceStroops", .str payload.appraisalPriceStroops),
      ("commitDeadline", .num payload.commitDeadline), ("issuedAt", .num payload.issuedAt),
      ("expiresAt", .num payload.expiresAt)]

/-- Bytes the principal signs: everything except the signature. -/
def mandateDigest (engine : Engine) (sha256 : Bytes → BytesN 32)
    (payload : SessionMandatePayload) : Bytes :=
  (sha256 (canonical engine payload.json).toUTF8.toList).val

/-- The value of a digit of either base 64 alphabet. -/
def base64Digit? (c : Char) : Option Nat :=
  if 'A' ≤ c ∧ c ≤ 'Z' then some (c.toNat - 65)
  else if 'a' ≤ c ∧ c ≤ 'z' then some (c.toNat - 71)
  else if '0' ≤ c ∧ c ≤ '9' then some (c.toNat + 4)
  else if c = '+' ∨ c = '-' then some 62
  else if c = '/' ∨ c = '_' then some 63
  else none

def base64Groups : List Nat → Bytes
  | a :: b :: c :: d :: ds =>
    UInt8.ofNat (a * 4 + b / 16) :: UInt8.ofNat (b * 16 + c / 4) :: UInt8.ofNat (c * 64 + d) ::
      base64Groups ds
  | [a, b, c] => [UInt8.ofNat (a * 4 + b / 16), UInt8.ofNat (b * 16 + c / 4)]
  | [a, b] => [UInt8.ofNat (a * 4 + b / 16)]
  | _ => []

/-- `Buffer.from(text, "base64")`: characters outside the alphabet are skipped and a `=` ends the
text. -/
def base64Bytes (text : String) : Bytes :=
  base64Groups ((text.toList.takeWhile (· ≠ '=')).filterMap base64Digit?)

/-! ## Checks -/

/-- What the options of `verifySessionMandate` bind; the time is always given. -/
structure Binding where
  contractId : Option String
  roundId : Option Int
  now : Int

/-- Verify principal signature, expiry, and round binding. -/
def verifySessionMandate (engine : Engine) (keypairs : Keypairs) (sha256 : Bytes → BytesN 32)
    (mandate : SessionMandate) (opts : Binding) : Except Thrown Unit := do
  if mandate.version ≠ mandateVersion then
    .error (.error s!"unsupported mandate version {engine.numberToString mandate.version}")
  let digest := mandateDigest engine sha256 mandate.toSessionMandatePayload
  let ok ← keypairs.verify mandate.principal digest (base64Bytes mandate.signature)
  if !ok then .error (.error "invalid mandate signature")
  let now := Number.finite opts.now
  if mandate.expiresAt.lt now then .error (.error "mandate expired")
  if mandate.commitDeadline.lt now then .error (.error "commit deadline passed")
  if opts.contractId.getD "" ≠ "" ∧ some mandate.contractId ≠ opts.contractId then
    .error (.error "mandate contractId mismatch")
  if opts.roundId.any fun roundId => mandate.roundId ≠ toString roundId then
    .error (.error "mandate roundId mismatch")
  if (← bigIntOfText mandate.maxBidStroops) > (← bigIntOfText mandate.maxEscrowStroops) then
    .error (.error "maxBidStroops cannot exceed maxEscrowStroops")
  if (← bigIntOfText mandate.appraisalPriceStroops) >
      (← bigIntOfText mandate.maxAppraisalSpendStroops) then
    .error (.error "appraisal price exceeds maxAppraisalSpend")

/-- Refuse an appraisal charge that exceeds the mandate or cumulative spend. -/
def assertAppraisalSpendAllowed (mandate : SessionMandate)
    (quotedPriceStroops spentSoFarStroops : Int) : Except Thrown Unit := do
  if (← bigIntOfText mandate.appraisalPriceStroops) < quotedPriceStroops then
    .error (.error (s!"appraisal price {quotedPriceStroops} exceeds mandate cap " ++
      mandate.appraisalPriceStroops))
  let next := spentSoFarStroops + quotedPriceStroops
  if (← bigIntOfText mandate.maxAppraisalSpendStroops) < next then
    .error (.error (s!"appraisal spend {next} would exceed mandate cap " ++
      mandate.maxAppraisalSpendStroops))

/-- Refuse a bid and escrow pair that exceeds mandate caps. -/
def assertBidWithinMandate (mandate : SessionMandate) (bidValue escrow : Int) :
    Except Thrown Unit := do
  if bidValue ≤ 0 then .error (.error "bid must be positive")
  if (← bigIntOfText mandate.maxBidStroops) < bidValue then
    .error (.error s!"bid {bidValue} exceeds mandate maxBid {mandate.maxBidStroops}")
  if escrow ≤ 0 then .error (.error "escrow must be positive")
  if (← bigIntOfText mandate.maxEscrowStroops) < escrow then
    .error (.error s!"escrow {escrow} exceeds mandate maxEscrow {mandate.maxEscrowStroops}")
  if escrow < bidValue then
    .error (.error s!"bid {bidValue} exceeds escrow {escrow} (on-chain cap)")

/-- `BigInt(Math.round(amount * 1e7))`, with the product as the engine rounds it. -/
def usdcToStroops (timesTenMillion : Number → Number) (amount : Option Number) :
    Except Thrown Int :=
  match amount.map timesTenMillion with
  | some (.finite q) => .ok ⌊q + 1 / 2⌋
  | _ => .error (.native .rangeError)

/-- Size bid and escrow from a paid appraisal, clamped to the mandate. -/
def bidFromAppraisal (timesTenMillion : Number → Number) (suggestedMaxBidUsdc : Option Number)
    (mandate : SessionMandate) : Except Thrown (Int × Int) := do
  let suggested ← usdcToStroops timesTenMillion suggestedMaxBidUsdc
  let maxBid ← bigIntOfText mandate.maxBidStroops
  let maxEscrow ← bigIntOfText mandate.maxEscrowStroops
  let bidValue := if maxBid < suggested then maxBid else suggested
  assertBidWithinMandate mandate bidValue (if bidValue ≤ maxEscrow then bidValue else maxEscrow)
  let escrow := bidValue
  assertBidWithinMandate mandate bidValue escrow
  return (bidValue, escrow)

end SubRosa.Agent
