import SubRosa.Agent.Mandate

/-!
# The bidder agent

`bidder.ts` with the paid fetch of `client.ts`: verify the mandate, pay for an
appraisal, size a bid, seal and commit it. The payment protocol is a package:
what it reads in a response and what it signs are parameters.
-/

namespace SubRosa.Agent

open JavaScript Sdk

/-- A response of the appraisal server. -/
structure Response where
  status : Nat
  headers : String → Option String
  /-- What `json()` gives. -/
  json : Except Thrown Json

/-- The package for payments; `Demand` is a readable payment request and `Payment` a signed
authorisation. -/
structure Payments (Demand Payment : Type) where
  getPaymentRequiredResponse : (String → Option String) → Option Json → Except Thrown Demand
  getPaymentSettleResponse : (String → Option String) → Except Thrown Json
  /-- The amount a payment request demands. -/
  demanded : Demand → Int
  /-- The amount a payment authorises. -/
  authorised : Payment → Int

structure SealBidParams where
  value : Int
  nonce : Bytes
  round : Number
  identity : Bytes
  auditorPublicKey : Bytes

inductive Request (Demand Payment : Type)
  /-- The local clock in seconds. -/
  | now
  | getRound (roundId : Int)
  /-- An HTTP request with this body, paid for or not. -/
  | fetch (body : Json) (payment : Option Payment)
  | createPaymentPayload (demand : Demand)
  | generateNonce
  | sealBid (params : SealBidParams)
  | commit (params : CommitParams)

def Request.Answer {Demand Payment : Type} : Request Demand Payment → Type
  | now => Int
  | getRound _ => Round
  | fetch _ _ => Response
  | createPaymentPayload _ => Payment
  | generateNonce => Bytes
  | sealBid _ => SealedBid
  | commit _ => Unit

/-- An asynchronous function of the agent. -/
abbrev Task (Demand Payment : Type) :=
  Coroutine Unit (Request Demand Payment) Request.Answer Thrown

mutual

/-- `JSON.stringify`. -/
def stringify (engine : Engine) : Json → String
  | .null => "null"
  | .bool b => if b then "true" else "false"
  | .num n => numberText engine n
  | .str s => quote s
  | .arr items => "[" ++ ",".intercalate (stringifyItems engine items) ++ "]"
  | .obj fields => "\x7b" ++ ",".intercalate (stringifyFields engine fields) ++ "\x7d"

def stringifyItems (engine : Engine) : List Json → List String
  | [] => []
  | item :: items => stringify engine item :: stringifyItems engine items

def stringifyFields (engine : Engine) : List (String × Json) → List String
  | [] => []
  | (key, val) :: fields =>
    (quote key ++ ":" ++ stringify engine val) :: stringifyFields engine fields

end

structure PaidResult where
  status : Nat
  body : Json
  settlement : Option Json

structure BidderAgentConfig where
  mandate : SessionMandate
  sessionSecret : String
  auditorPubkey : Bytes
  revealRound : Number
  attributes : Json

structure BidderAgentResult where
  bidder : String
  bidValue : Int
  escrow : Int
  auditorBlob : Bytes
  appraisal : JsValue
  appraisalSettlement : Option Json
  inputsHash : JsValue

/-- What the agent computes with: the language, keys, hashes, payments and the product with
`1e7`. -/
structure Platform (Demand Payment : Type) where
  engine : Engine
  keypairs : Keypairs
  sha256 : Bytes → BytesN 32
  payments : Payments Demand Payment
  timesTenMillion : Number → Number

section

variable {Demand Payment : Type}

def ask (q : Request Demand Payment) : Task Demand Payment q.Answer := Coroutine.request q

variable (platform : Platform Demand Payment)

/-- Try the request; if the server answers 402, sign what it demands and retry. -/
def paidFetch (body : Json) : Task Demand Payment PaidResult := do
  let first ← ask (.fetch body none)
  if first.status ≠ 402 then do
    let body ← .done first.json
    return ⟨first.status, body, none⟩
  else do
    let bodyForParse := first.json.toOption
    let paymentRequired ←
      .done (platform.payments.getPaymentRequiredResponse first.headers bodyForParse)
    let payload ← ask (.createPaymentPayload paymentRequired)
    let paid ← ask (.fetch body (some payload))
    let body ← .done paid.json
    if paid.status ≠ 200 then
      .fail (.error
        s!"paid request failed ({paid.status}): {stringify platform.engine body}")
    else do
      let settlement ← .done (platform.payments.getPaymentSettleResponse paid.headers)
      return ⟨paid.status, body, some settlement⟩

/-- The body of the appraisal request; an absent category is no field. -/
def appraisalRequest (mandate : SessionMandate) (attributes : Json) : Json :=
  .obj <|
    [("itemRef", .str mandate.itemRef), ("basePrice", .num mandate.basePriceUsdc)] ++
    (mandate.category.map fun category => ("category", Json.str category)).toList ++
    [("attributes", attributes)]

variable (config : BidderAgentConfig)

/-- The checks of the keys and of the mandate at a time; the results are the round and the key. -/
def checkSession (now : Int) : Except Thrown (Int × String) := do
  let roundId ← bigIntOfText config.mandate.roundId
  let publicKey ← platform.keypairs.fromSecret config.sessionSecret
  throwIf (publicKey ≠ config.mandate.sessionKey) "sessionSecret does not match mandate.sessionKey"
  verifySessionMandate platform.engine platform.keypairs platform.sha256 config.mandate
    ⟨some config.mandate.contractId, some roundId, now⟩
  return (roundId, publicKey)

def Status.tag : Status → String
  | .Open => "Open"
  | .Revealing => "Revealing"
  | .Cleared => "Cleared"
  | .Settled => "Settled"
  | .Voided => "Voided"

/-- What precedes the payment once the round is read. -/
def checkRound (roundId : Int) (round : Round) : Except Thrown Unit := do
  throwIf (round.status ≠ .Open)
    s!"round {roundId} is not open for commits (status={Status.tag round.status})"
  let quotedPrice ← bigIntOfText config.mandate.appraisalPriceStroops
  assertAppraisalSpendAllowed config.mandate quotedPrice 0

/-- The appraisal in the body of the server, and the bid it leads to. -/
def bidOf (paid : PaidResult) : Except Thrown (JsValue × Int × Int) := do
  throwIf (paid.status ≠ 200) s!"appraisal failed: {stringify platform.engine paid.body}"
  let appraisal ← getProperty platform.engine (some paid.body) "appraisal"
  throwIf (!truthy appraisal) s!"appraisal failed: {stringify platform.engine paid.body}"
  let itemRef ← getProperty platform.engine appraisal "itemRef"
  throwIf (!strictEq itemRef (some (.str config.mandate.itemRef))) "appraisal itemRef mismatch"
  let suggestedMaxBid ← getProperty platform.engine appraisal "suggestedMaxBid"
  let (bidValue, escrow) ← bidFromAppraisal platform.timesTenMillion
    (← toNumber platform.engine suggestedMaxBid) config.mandate
  assertBidWithinMandate config.mandate bidValue escrow
  return (appraisal, bidValue, escrow)

/-- What follows the payment: size, seal and commit the bid. -/
def placeBid (roundId : Int) (publicKey : String) (paid : PaidResult) :
    Task Demand Payment BidderAgentResult := do
  let (appraisal, bidValue, escrow) ← .done (bidOf platform config paid)
  let nonce ← ask .generateNonce
  let sealedBid ← ask (.sealBid {
    value := bidValue
    nonce
    round := config.revealRound
    identity := ("agent:" ++ publicKey).toUTF8.toList
    auditorPublicKey := config.auditorPubkey })
  ask (.commit { roundId := .bigint roundId, sealedBid, escrow, bidder := none })
  let inputsHash ← .done (getProperty platform.engine appraisal "inputsHash")
  return {
    bidder := publicKey
    bidValue
    escrow
    auditorBlob := sealedBid.auditorBlob
    appraisal
    appraisalSettlement := paid.settlement
    inputsHash }

/-- Run one autonomous bid: verify mandate, pay appraisal, seal, commit. -/
def runBidderAgent : Task Demand Payment BidderAgentResult := do
  let now ← ask .now
  let (roundId, publicKey) ← .done (checkSession platform config now)
  let round ← ask (.getRound roundId)
  .done (checkRound config roundId round)
  let paid ← paidFetch platform (appraisalRequest config.mandate config.attributes)
  placeBid platform config roundId publicKey paid

end

end SubRosa.Agent
