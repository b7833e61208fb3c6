import SubRosa.Library.FirstBest
import SubRosa.Sdk.Receipts

/-!
# The verifier of structured receipts

`verifyReceiptV2`, section by section in the order of the source. `r` reads a
field of the receipt.
-/

namespace SubRosa.Sdk

open JavaScript Report

section

variable (engine : Engine) (sha256 : Bytes → BytesN 32) (r : String → JsValue)

/-- `typeof v === "number" && Number.isSafeInteger(v) && v > 0`. -/
def isSafePositive : JsValue → Bool
  | some (.num n) => n.isSafeInteger && (0 : Number).lt n
  | _ => false

/-- `Number.isInteger(v) && low <= v && v <= high`. -/
def isIntegerBetween (low high : Number) : JsValue → Bool
  | some (.num n) => n.isInteger && !n.lt low && !high.lt n
  | _ => false

def hasVersion : Prop :=
  (strictEq (some (.num 2)) (r "version") ∨ strictEq (some (.num 3)) (r "version")) ∧
    strictEq (r "protocolVersion") (r "version")

instance : Decidable (hasVersion r) := inferInstanceAs (Decidable (_ ∧ _))

def isVersion3 : Bool := strictEq (r "version") (some (.num 3))

def isAuction : Bool := strictEq (r "mode") (some (.str "Auction"))

def hasStatus (status : String) : Bool := strictEq (r "status") (some (.str status))

def checkNetwork : Check Unit := do
  if truthy (r "network") then
    let passphrase ← lift (text engine (r "network"))
    addIf (¬ strictEq (r "networkFingerprint") (some (.str (networkFingerprint sha256 passphrase))))
      (issue "network_mismatch" "network fingerprint does not match the passphrase")
  else
    add (issue "network_mismatch" "network fingerprint does not match the passphrase")

def checkIdentity : Check Unit := do
  checkNetwork engine sha256 r
  addIf (¬ startsWith 'C' (r "contractId"))
    (issue "invalid_contract_id" "contractId must be a Stellar contract address")
  addIf (decimal (r "roundId") = none) (issue "invalid_round_id" "roundId is invalid")
  addIf (¬ isHexOf 32 (r "itemRef")) (issue "invalid_item_ref" "itemRef must be 32 bytes")
  addIf (¬ isHexOf 32 (r "schemaRef")) (issue "invalid_schema_ref" "schemaRef must be 32 bytes")
  addIf (¬ isHexValue (r "auditorPubkey")) (issue "invalid_auditor_key" "auditorPubkey must be hex")
  addIf (¬ isSafePositive (r "revealRound"))
    (issue "invalid_reveal_round" "revealRound must be a positive safe integer")
  addIf (¬ isIntegerBetween 1 25 (r "maxParticipants"))
    (issue "invalid_participant_cap" "maxParticipants must be between 1 and 25")

/-! ## Opening -/

/-- The Drand time of the reveal round, when the receipt determines it. -/
def privacyTime : Option Int :=
  match decimal (r "drandGenesis"), decimal (r "drandPeriod"), r "revealRound" with
  | some genesis, some period, some (.num round) =>
    if 0 ≤ genesis ∧ 0 < period ∧ isSafePositive (some (.num round)) then
      some (genesis + period * (round.toInt - 1))
    else none
  | _, _, _ => none

/-- `commit < privacy < deadline`, all of them known. -/
def timingOk : Option Int → Option Int → Option Int → Bool
  | some privacy, some commit, some deadline => commit < privacy ∧ privacy < deadline
  | _, _, _ => false

/-- The fallback follows the Drand time and leaves 300 seconds. -/
def fallbackOk : Option Int → Option Int → Option Int → Bool
  | some fallback, some privacy, some deadline => privacy < fallback ∧ 300 ≤ deadline - fallback
  | _, _, _ => false

/-- `opened` lies between the Drand time and the deadline. -/
def openedOk : Option Int → Option Int → Option Int → Bool
  | some opened, some privacy, some deadline => privacy ≤ opened ∧ opened ≤ deadline
  | _, _, _ => false

def checkRevealPolicy : Check Unit :=
  match r "revealPolicy" with
  | some reveal =>
    let field := property engine reveal
    if ¬ truthy (some reveal) ∨ ¬ (strictEq (field "type") (some (.str "timed")) ∨
        strictEq (field "type") (some (.str "owner-triggered"))) then
      add (issue "invalid_reveal_policy" "v3 requires an explicit reveal policy")
    else
      addIf (strictEq (field "type") (some (.str "owner-triggered")) ∧
          ¬ (strictEq (field "controller") (r "operator") ∧
            fallbackOk (decimal (field "fallbackAt")) (privacyTime r)
              (decimal (r "revealDeadline"))))
        (issue "invalid_reveal_policy" ("controller must be operator; " ++
          "fallback must follow Drand time and leave 300 seconds to reveal"))
  | none => add (issue "invalid_reveal_policy" "v3 requires an explicit reveal policy")

def checkOpenedAt : Check Unit :=
  if hasStatus r "Open" ∨ hasStatus r "Voided" then
    addIf (¬ strictEq (r "openedAt") (some .null))
      (issue "invalid_opened_at" "unopened/voided round must have null openedAt")
  else
    addIf (¬ openedOk (decimal (r "openedAt")) (privacyTime r) (decimal (r "revealDeadline")))
      (issue "invalid_opened_at" "openedAt must lie within the Drand/reveal window")

def checkOpening : Check Unit := do
  if isVersion3 r then
    addIf (¬ strictEq (optionalGet engine (r "policy") "enforced") (some (.bool true)))
      (issue "missing_partner_policy" "v3 requires its contract-enforced partner policy")
    addIf (¬ timingOk (privacyTime r) (decimal (r "commitDeadline")) (decimal (r "revealDeadline")))
      (issue "invalid_reveal_timing" "v3 requires commitDeadline < Drand time < revealDeadline")
    checkRevealPolicy engine r
    checkOpenedAt r
  else
    addIf (¬ strictEq (r "revealPolicy") none ∨ ¬ strictEq (r "openedAt") none)
      (issue "unexpected_reveal_policy" "v2 receipts cannot attest v3 opening policy")

/-! ## The partner policy -/

/-- Every bidder is on the list. -/
def checkEligible (eligible : List Json) (bidders : List Json) : Check Unit :=
  forM bidders fun bidder =>
    if hasValue eligible bidder then pure ()
    else do
      let name ← lift (text engine (some bidder))
      add (issue "ineligible_bidder" s!"{name} is not included in the round allowlist")

def checkEligibility (enforced : Bool) (policy : String → JsValue) : Check Unit :=
  match policy "eligibleParticipants" with
  | some (.arr participants) => do
    let eligible := setOf participants
    addIf (eligible.length ≠ participants.length)
      (issue "duplicate_eligible_participant" "eligibleParticipants contains duplicates")
    let cap ← lift (toNumber engine (r "maxParticipants"))
    addIf (lessThan cap (some (.finite participants.length)))
      (issue "eligibility_exceeds_cap" "eligibleParticipants exceeds maxParticipants")
    let expected := if eligible.length = 0 then "Open" else "Allowlist"
    addIf (¬ strictEq (policy "participation") (some (.str expected)))
      (issue "participation_mismatch" "participation does not match eligibleParticipants")
    match r "bidders" with
    | some (.arr bidders) =>
      if enforced ∧ 0 < eligible.length then checkEligible engine eligible bidders else pure ()
    | _ => pure ()
  | _ => add (issue "invalid_eligibility" "eligibleParticipants must be an array")

def isObject : JsValue → Bool
  | some (.obj _) | some (.arr _) => true
  | _ => false

/-- `x > 0n`, for an amount that is there. -/
def isPositive : Option Int → Bool
  | some x => 0 < x
  | none => false

/-- `x >= 0n`, for an amount that is there. -/
def isNonnegative : Option Int → Bool
  | some x => 0 ≤ x
  | none => false

def checkPolicy : Check Unit :=
  match r "policy" with
  | some p =>
    if isObject (some p) then do
      let policy := property engine p
      let enforced := truthy (policy "enforced")
      let fixedEscrow := decimal (policy "fixedEscrow")
      addIf (enforced ∧ fixedEscrow = none)
        (issue "invalid_fixed_escrow" "enforced policy requires fixedEscrow")
      addIf (¬ enforced ∧ ¬ strictEq (policy "fixedEscrow") (some .null))
        (issue "legacy_policy_has_escrow" "unenforced legacy policy must use null fixedEscrow")
      checkEligibility engine r enforced policy
      addIf (enforced ∧ isAuction r ∧ ¬ isPositive fixedEscrow)
        (issue "invalid_fixed_escrow" "Auction policy requires positive fixedEscrow")
      addIf (enforced ∧ strictEq (r "mode") (some (.str "ReceiptOnly")) ∧ fixedEscrow ≠ some 0)
        (issue "receipt_only_fixed_escrow" "ReceiptOnly policy requires zero fixedEscrow")
      addIf (¬ enforced) (warning "legacy_policy" "round predates enforced partner policy" none)
    else add (issue "missing_policy" "receipt must include its partner policy")
  | none => add (issue "missing_policy" "receipt must include its partner policy")

/-! ## The mode -/

def checkMode : Check Unit := do
  let lotAmount := decimal (r "lotAmount")
  let winningAmount := decimal (r "winningAmount")
  addIf (¬ isNonnegative lotAmount) (issue "invalid_lot_amount" "lotAmount is invalid")
  addIf (¬ isNonnegative winningAmount) (issue "invalid_winning_amount" "winningAmount is invalid")
  if isAuction r then
    addIf (¬ truthy (r "paymentAsset") ∨ ¬ truthy (r "lotAsset") ∨ ¬ isPositive lotAmount)
      (issue "invalid_auction_assets"
        "Auction requires payment asset, lot asset, and positive lot amount")
  else if strictEq (r "mode") (some (.str "ReceiptOnly")) then
    addIf (¬ strictEq (r "paymentAsset") (some .null) ∨ ¬ strictEq (r "lotAsset") (some .null) ∨
        lotAmount ≠ some 0)
      (issue "receipt_only_has_assets" "ReceiptOnly cannot configure settlement assets")
    addIf (¬ strictEq (r "winner") (some .null) ∨ winningAmount ≠ some 0)
      (issue "receipt_only_has_winner" "ReceiptOnly cannot declare an economic winner")
  else
    let mode ← lift (text engine (r "mode"))
    add (issue "invalid_mode" s!"unsupported mode {mode}")

/-! ## Bidders and submissions -/

variable (bidders : List Json) (submissions : Json)

/-- `submissions[bidder]` with the text of the bidder. -/
def submissionOf (bidder : Json) : Except Thrown (String × JsValue) := do
  let name ← text engine (some bidder)
  return (name, property engine submissions name)

/-- Enter one bidder into the set of those seen. -/
def visitBidder (seen : List Json) (bidder : Json) : Check (List Json) := do
  let (name, submission) ← lift (submissionOf engine submissions bidder)
  addIf (hasValue seen bidder) (issue "duplicate_bidder" s!"duplicate bidder {name}")
  addIf (¬ truthy submission) (issue "missing_submission" s!"missing submission for {name}")
  return insertValue seen bidder

def checkRoster : Check Unit := do
  let seen ← bidders.foldlM (visitBidder engine submissions) []
  forM (entriesOf submissions) fun entry =>
    addIf (¬ hasValue seen (.str entry.1))
      (issue "orphan_submission" s!"submission for unknown bidder {entry.1}")

/-- The revealed envelope against the commitment and the amount on chain. -/
def checkEnvelope (path : String) (submission : String → JsValue) (stateAmount : Option Int) :
    Check (Option Int) :=
  if strictEq (submission "revealedEnvelope") (some .null) then do
    addIf (truthy (submission "valid"))
      (issueAt "valid_without_envelope" "valid submission must include its revealed envelope" path)
    return none
  else
    match submission "revealedEnvelope" with
    | some (.str hex) =>
      if isHexValue (some (.str hex)) then do
        let envelopeBytes ← lift (fromHexText hex)
        let declared ← lift (toLowerCase (submission "commitment"))
        addIf (toHex (sha256 envelopeBytes).val ≠ declared)
          (issueAt "commitment_mismatch" "revealed envelope does not match commitment"
            (path ++ ".commitment"))
        match decodePayloadEnvelope envelopeBytes with
        | .ok envelope => do
          addIf (envelope.amount ≠ stateAmount)
            (issueAt "amount_mismatch" "envelope amount does not match on-chain revealed amount"
              (path ++ ".revealedAmount"))
          return envelope.amount
        | .error e => do
          add (issueAt "malformed_envelope" (e.text engine) (path ++ ".revealedEnvelope"))
          return none
      else do
        add (issueAt "invalid_envelope_hex" "revealedEnvelope must be hex"
          (path ++ ".revealedEnvelope"))
        return none
    | _ => do
      add (issueAt "invalid_envelope_hex" "revealedEnvelope must be hex"
        (path ++ ".revealedEnvelope"))
      return none

/-- `a` takes over from `b`; any rule but one means the lowest. -/
def ranksOver (rule : JsValue) (a b : Int) : Prop :=
  if strictEq rule (some (.str "HighestBid")) then b < a else a < b

instance (rule : JsValue) : DecidableRel (ranksOver rule) := fun a b =>
  inferInstanceAs (Decidable (if strictEq rule (some (.str "HighestBid")) then b < a else a < b))

/-- A positive bid within its escrow competes. -/
def compete (path : String) (bidder : Json) (envelopeAmount escrow : Option Int) (leader : Leader) :
    Check Leader :=
  match envelopeAmount with
  | none => do
    add (issueAt "auction_amount_missing" "valid auction submission needs a positive amount" path)
    return leader
  | some amount =>
    if amount ≤ 0 then do
      add (issueAt "auction_amount_missing" "valid auction submission needs a positive amount" path)
      return leader
    else if escrow.any fun e => decide (e < amount) then do
      add (issueAt "bid_exceeds_escrow" "revealed bid exceeds public escrow" path)
      return leader
    else return FirstBest.keep (ranksOver (r "clearingRule")) leader bidder amount

/-- The flagged submissions of an auction compete. -/
def rankSubmission (path : String) (bidder : Json) (submission : String → JsValue)
    (envelopeAmount escrow : Option Int) (leader : Leader) : Check Leader :=
  if isAuction r ∧ truthy (submission "valid") then
    compete r path bidder envelopeAmount escrow leader
  else return leader

def checkEvidence (path : String) (evidence : JsValue) : Check Unit :=
  match evidence with
  | none | some .null => pure ()
  | some evidence =>
    forM (entriesOf evidence) fun entry =>
      addIf (¬ strictEq (some entry.2) (some .null) ∧ ¬ isHexValue (some entry.2))
        (issueAt "invalid_evidence_hex" s!"{entry.1} must be hex" s!"{path}.evidence.{entry.1}")

/-- One submission; the bids of an auction compete. -/
def checkSubmission (path : String) (bidder : Json) (submission : String → JsValue)
    (leader : Leader) :
    Check Leader := do
  addIf (¬ isHexOf 32 (submission "commitment"))
    (issueAt "invalid_commitment" "commitment must be 32 bytes" (path ++ ".commitment"))
  let escrow := decimal (submission "escrow")
  addIf (¬ isNonnegative escrow) (issueAt "invalid_escrow" "escrow is invalid" (path ++ ".escrow"))
  let stateAmount := decimal (submission "revealedAmount")
  addIf (¬ strictEq (submission "revealedAmount") (some .null) ∧ stateAmount = none)
    (issueAt "invalid_revealed_amount" "revealedAmount is invalid" (path ++ ".revealedAmount"))
  let policyEscrow := decimal (optionalGet engine (r "policy") "fixedEscrow")
  addIf (truthy (optionalGet engine (r "policy") "enforced") ∧ isAuction r ∧ escrow ≠ none ∧
      policyEscrow ≠ none ∧ escrow ≠ policyEscrow)
    (issueAt "escrow_policy_mismatch" "submission escrow does not match fixedEscrow"
      (path ++ ".escrow"))
  let envelopeAmount ← checkEnvelope engine sha256 path submission stateAmount
  let leader ← rankSubmission r path bidder submission envelopeAmount escrow leader
  addIf (hasStatus r "Settled" ∧ ¬ truthy (submission "settled"))
    (issueAt "unsettled_submission" "settled round contains an unsettled submission"
      (path ++ ".settled"))
  checkEvidence path (submission "evidence")
  return leader

def visitSubmission (leader : Leader) (bidder : Json) : Check Leader := do
  let (name, submission) ← lift (submissionOf engine submissions bidder)
  match submission with
  | some s =>
    if truthy (some s) then
      checkSubmission engine sha256 r ("submissions." ++ name) bidder (property engine s) leader
    else pure leader
  | none => pure leader

def checkWinner (leader : Leader) : Check Unit :=
  addIf (isAuction r ∧ (hasStatus r "Cleared" ∨ hasStatus r "Settled") ∧
      ¬ (strictEq (some ((leader.map Prod.fst).getD .null)) (r "winner") ∧
        leader.map Prod.snd = decimal (r "winningAmount")))
    (issueAt "winner_mismatch" "declared auction winner does not match valid revealed submissions"
      "winner")

end

def checkReceiptV2 (engine : Engine) (sha256 : Bytes → BytesN 32) (receipt : Json) :
    Check Leader := do
  let _ ← lift (getProperty engine (some receipt) "version")
  let r := property engine receipt
  if ¬ hasVersion r then
    add (issue "unsupported_version" "receipt and protocol versions must match (2 or 3)")
    stop
  else
    checkIdentity engine sha256 r
    checkOpening engine r
    checkPolicy engine r
    checkMode engine r
    match r "bidders", r "submissions" with
    | some (.arr bidders), some (.obj fields) => do
      checkRoster engine bidders (.obj fields)
      let leader ← bidders.foldlM (visitSubmission engine sha256 r (.obj fields)) none
      checkWinner r leader
      return leader
    | some (.arr _), _ => do
      add (issue "missing_submissions" "submissions must be an object")
      stop
    | _, _ => do
      add (issue "missing_bidders" "bidders must be an array")
      stop

def verifyReceiptV2 (engine : Engine) (sha256 : Bytes → BytesN 32) (receipt : Json) :
    Except Thrown VerificationResult :=
  conclude (checkReceiptV2 engine sha256 receipt)

end SubRosa.Sdk
