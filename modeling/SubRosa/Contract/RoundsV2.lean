import SubRosa.Contract.Payouts
import SubRosa.Contract.Drand
import SubRosa.Contract.Payload
import SubRosa.Contract.Rounds

/-!
# Entry points of the second and third generation

`create_round_v2_impl` to `void_v2` of `lib.rs`, check for check in source
order. Version 3 rounds reuse every version 2 entry point; what differs is the
creation and the opening policy.
-/

namespace SubRosa

open MachineInt Invocation

/-- The arguments of the structured creation entry points. -/
structure RoundArgsV2 extends RoundArgs where
  schemaRef : BytesN 32
  maxParticipants : UInt32

def RoundArgsV2.newRound (args : RoundArgsV2) (settlement : SettlementConfig) : RoundV2 where
  protocolVersion := coreV2Version
  schemaRef := args.schemaRef
  mode := settlement.mode
  operator := args.operator
  itemRef := args.itemRef
  paymentAsset := settlement.paymentAsset
  lotAsset := settlement.lotAsset
  lotAmount := settlement.lotAmount
  revealRound := args.revealRound
  clearingRule := args.clearingRule
  commitDeadline := args.commitDeadline
  revealDeadline := args.revealDeadline
  auditorPubkey := args.auditorPubkey
  maxParticipants := args.maxParticipants
  status := .Open
  bidders := []
  winner := none
  winningBid := 0

/-- Some address occurs at two places of the list. -/
def hasDuplicate : List Address → Bool
  | [] => false
  | left :: rest => rest.any (fun right => decide (left = right)) || hasDuplicate rest

/-- Auction rounds name both assets and a positive lot, receipt-only rounds none. -/
def checkSettlement (settlement : SettlementConfig) : Contract Unit :=
  match settlement.mode with
  | .Auction =>
      failIf (settlement.paymentAsset.isNone = true ∨ settlement.lotAsset.isNone = true ∨
        settlement.lotAmount ≤ 0) .InvalidAmount
  | .ReceiptOnly =>
      failIf (settlement.paymentAsset.isSome = true ∨ settlement.lotAsset.isSome = true ∨
        settlement.lotAmount ≠ 0) .EscrowNotAllowed

/-- The fixed escrow of a policy against the mode. -/
def checkFixedEscrow (mode : RoundMode) (fixedEscrow : I128) : Contract Unit :=
  match mode with
  | .Auction => failIf (fixedEscrow ≤ 0) .InvalidAmount
  | .ReceiptOnly => failIf (fixedEscrow ≠ 0) .EscrowNotAllowed

def checkPolicy (mode : RoundMode) (maxParticipants : UInt32) :
    Option RoundPolicyV2 → Contract Unit
  | none => pure ()
  | some policy => do
    checkFixedEscrow mode policy.fixedEscrow
    failIf (maxParticipants.toNat < policy.eligibleParticipants.length) .InvalidLimit
    failIf (hasDuplicate policy.eligibleParticipants = true) .InvalidLimit

/-- Take the lot into custody. -/
def takeLot (operator : Address) (lotAsset : Option Address) (lotAmount : I128) :
    Contract Unit := do
  let env ← read
  match lotAsset with
  | some asset => transfer asset operator env.currentContract lotAmount
  | none => pure ()

def storePolicy (roundId : UInt64) : Option RoundPolicyV2 → Contract Unit
  | some policy => setRoundPolicyV2 roundId policy
  | none => pure ()

def createRoundV2Impl (args : RoundArgsV2) (settlement : SettlementConfig)
    (policy : Option RoundPolicyV2) : Contract UInt64 := do
  let env ← read
  requireAuth args.operator
  let config ← getConfig
  failIf (args.revealRound = 0) .InvalidAmount
  failIf (args.maxParticipants = 0 ∨ maxV2Participants < args.maxParticipants) .InvalidLimit
  failIf (maxAuditorPubkey < args.auditorPubkey.length) .PayloadTooLarge
  let now := env.timestamp
  let tReveal := timeOfRound config args.revealRound
  failIf (tReveal ≤ args.commitDeadline ∨ args.revealDeadline ≤ tReveal)
    .CommitDeadlineAfterReveal
  failIf (args.commitDeadline ≤ now) .DeadlineInPast
  failIf (maxRoundDurationSecs < saturatingSub args.revealDeadline now) .RoundDurationTooLong
  checkSettlement settlement
  checkPolicy settlement.mode args.maxParticipants policy
  takeLot args.operator settlement.lotAsset settlement.lotAmount
  let roundId ← nextRoundId
  setRoundV2 roundId (args.newRound settlement)
  storePolicy roundId policy
  return roundId

def createRoundV2 (args : RoundArgsV2) (settlement : SettlementConfig) : Contract UInt64 :=
  createRoundV2Impl args settlement none

/-- A round with a fixed escrow and an optional allowlist. -/
def createPartnerRoundV2 (args : RoundArgsV2) (policy : RoundPolicyV2) : Contract UInt64 :=
  createRoundV2Impl args policy.settlement (some policy)

/-- The fallback lies after the Drand time and leaves a minimal reveal window. -/
def checkRevealPolicy (privacyAt revealDeadline : UInt64) : RevealPolicy → Contract Unit
  | .Timed => pure ()
  | .OwnerTriggered fallbackAt =>
      failIf (fallbackAt ≤ privacyAt ∨
        (checkedSub revealDeadline fallbackAt).getD 0 < minRevealWindow) .InvalidRevealPolicy

/-- Versioned creation with an immutable opening policy. -/
def createRoundV3 (args : RoundArgsV2) (policy : RoundPolicyV3) : Contract UInt64 := do
  let config ← getConfig
  checkRevealPolicy (timeOfRound config args.revealRound) args.revealDeadline policy.reveal
  let id ← createRoundV2Impl args policy.partner.settlement (some policy.partner)
  let round ← getRoundV2 id
  setRoundV2 id { round with protocolVersion := revealPolicyVersion }
  setRevealStateV3 id ⟨policy.reveal, none⟩
  return id

/-! ## Commit -/

/-- Auction rounds require escrow, receipt-only rounds reject it. -/
def checkEscrow (mode : RoundMode) (escrow : I128) : Contract Unit :=
  match mode with
  | .Auction => failIf (escrow ≤ 0) .InvalidAmount
  | .ReceiptOnly => failIf (escrow ≠ 0) .EscrowNotAllowed

/-- The allowlist and the fixed escrow of a stored policy. -/
def checkParticipant (mode : RoundMode) (bidder : Address) (escrow : I128) :
    Option RoundPolicyV2 → Contract Unit
  | none => pure ()
  | some policy => do
    let eligible := policy.eligibleParticipants.isEmpty ||
      policy.eligibleParticipants.any (fun allowed => decide (allowed = bidder))
    failIf (eligible = false) .ParticipantNotEligible
    failIf (mode = .Auction ∧ escrow ≠ policy.fixedEscrow) .EscrowPolicyMismatch

/-- Refund the previous escrow, if there is any. -/
def refundPrevious (round : RoundV2) (bidder : Address) (escrow : I128) : Contract Unit := do
  let env ← read
  if 0 < escrow then do
    let paymentAsset ← okOr round.paymentAsset .InvalidAmount
    transfer paymentAsset env.currentContract bidder escrow
  else pure ()

def enterOrRefundV2 (round : RoundV2) (roundId : UInt64) (bidder : Address) :
    Contract (List Address) := do
  match ← tryGetSubmissionV2 roundId bidder with
  | some previous => do
    refundPrevious round bidder previous.escrow
    return round.bidders
  | none => do
    failIf (round.maxParticipants.toNat ≤ round.bidders.length) .RoundFull
    return round.bidders ++ [bidder]

/-- Lock the new escrow, if there is any. -/
def lockEscrow (round : RoundV2) (bidder : Address) (escrow : I128) : Contract Unit := do
  let env ← read
  if 0 < escrow then do
    let paymentAsset ← okOr round.paymentAsset .InvalidAmount
    transfer paymentAsset bidder env.currentContract escrow
  else pure ()

/-- Commit a structured payload hash. -/
def commitV2 (roundId : UInt64) (bidder : Address) (commitment : BytesN 32) (ciphertext : Bytes)
    (escrow : I128) (auditorBlob : Bytes) : Contract Unit := do
  let env ← read
  requireAuth bidder
  let _config ← getConfig
  let round ← getRoundV2 roundId
  failIf (round.protocolVersion ≠ coreV2Version ∧ round.protocolVersion ≠ revealPolicyVersion)
    .UnsupportedVersion
  failIf (round.status = .Voided) .RoundVoided
  failIf (round.status = .Settled) .AlreadySettled
  failIf (round.status ≠ .Open) .WrongStatus
  failIf (round.commitDeadline < env.timestamp) .CommitClosed
  checkEscrow round.mode escrow
  let policy ← getRoundPolicyV2 roundId
  checkParticipant round.mode bidder escrow policy
  failIf (maxCiphertext < ciphertext.length ∨ maxAuditorBlob < auditorBlob.length)
    .PayloadTooLarge
  let bidders ← enterOrRefundV2 round roundId bidder
  lockEscrow round bidder escrow
  setSubmissionV2 roundId bidder
    { commitment, escrow, revealedEnvelope := none, revealedAmount := none, valid := false,
      settled := false }
  setSealV2 roundId bidder ⟨ciphertext, auditorBlob⟩ round.revealDeadline
  setRoundV2 roundId { round with bidders }

/-! ## Open and reveal -/

/-- Before the fallback of an owner-triggered round only the operator may open. -/
def requireOpener (policy : RevealPolicy) (operator : Address) : Contract Unit := do
  let env ← read
  match policy with
  | .Timed => pure ()
  | .OwnerTriggered fallbackAt =>
      if env.timestamp < fallbackAt then requireAuth operator else pure ()

/-- The opening rules of version 3; version 2 rounds have none. -/
def checkOpening (config : GlobalConfig) (roundId : UInt64) (round : RoundV2) :
    Contract (Option RevealStateV3) := do
  let env ← read
  if round.protocolVersion = revealPolicyVersion then do
    let state ← getRevealStateV3 roundId
    failIf (env.timestamp < timeOfRound config round.revealRound) .CommitNotClosed
    failIf (round.revealDeadline < env.timestamp) .RevealWindowClosed
    requireOpener state.policy round.operator
    return some state
  else return none

/-- Record the opening time of a version 3 round. -/
def storeOpening (roundId : UInt64) : Option RevealStateV3 → Contract Unit
  | some state => do
    let env ← read
    setRevealStateV3 roundId { state with openedAt := some env.timestamp }
  | none => pure ()

def openRevealV2 (roundId : UInt64) (drandSignature : BytesN 96) : Contract Unit := do
  let env ← read
  let config ← getConfig
  let round ← getRoundV2 roundId
  failIf (round.status = .Settled) .AlreadySettled
  failIf (round.status = .Voided) .RoundVoided
  failIf (round.status = .Cleared) .AlreadyCleared
  failIf (round.status ≠ .Open) .RevealAlreadyOpen
  failIf (env.timestamp ≤ round.commitDeadline) .CommitNotClosed
  let revealState ← checkOpening config roundId round
  let verified ← verifyRound config round.revealRound drandSignature
  failIf (verified = false) .InvalidDrandSignature
  storeOpening roundId revealState
  extendRoundSealsV2 roundId round.bidders round.revealDeadline
  setRoundV2 roundId { round with status := .Revealing }

/-- An error of the envelope decoder is the error of the call. -/
def decoded (envelope : Bytes) : Contract DecodedPayload :=
  match decodeEnvelope envelope with
  | .ok payload => pure payload
  | .error e => throw (.error e)

/-- The amount rule of the round's mode. -/
def checkReveal (mode : RoundMode) (escrow : I128) (amount : Option I128) : Contract Unit :=
  match mode with
  | .Auction => do
    let amount ← okOr amount .MalformedPayload
    failIf (amount ≤ 0) .InvalidAmount
    failIf (escrow < amount) .BidExceedsEscrow
  | .ReceiptOnly => failIf (escrow ≠ 0) .EscrowNotAllowed

/-- Record a canonical envelope that hashes to its commitment. -/
def revealV2 (roundId : UInt64) (bidder : Address) (envelope : Bytes) : Contract Unit := do
  let env ← read
  let round ← getRoundV2 roundId
  failIf (round.status = .Settled) .AlreadySettled
  failIf (round.status = .Voided) .RoundVoided
  failIf (round.status ≠ .Revealing) .RevealNotOpen
  failIf (round.revealDeadline < env.timestamp) .RevealWindowClosed
  let state ← getSubmissionV2 roundId bidder
  failIf (state.revealedEnvelope.isSome = true) .AlreadyRevealed
  failIf (env.sha256 envelope ≠ state.commitment) .HashMismatch
  let payload ← decoded envelope
  checkReveal round.mode state.escrow payload.amount
  setSubmissionV2 roundId bidder
    { state with
      revealedAmount := payload.amount
      revealedEnvelope := some envelope
      valid := true }

/-! ## Clear, settle and void -/

/-- Return the lot to the operator. -/
def returnLot (round : RoundV2) : Contract Unit := do
  let env ← read
  match round.lotAsset with
  | some lotAsset => transfer lotAsset env.currentContract round.operator round.lotAmount
  | none => pure ()

def refundAllV2 (round : RoundV2) (roundId : UInt64) : Contract Unit := do
  match round.paymentAsset with
  | some paymentAsset => do
    refundBiddersV2 (submissionRecords roundId) paymentAsset round.bidders
    returnLot round
  | none => returnLot round

/-- Mark every submission of a receipt-only round. -/
def finalizeSubmissions (roundId : UInt64) (bidders : List Address) : Contract Unit :=
  forM bidders fun bidder => do
    match ← tryGetSubmissionV2 roundId bidder with
    | none => pure ()
    | some state => setSubmissionV2 roundId bidder { state with settled := true }

/-- Finalize a receipt-only round, or clear an auction. -/
def clearV2 (roundId : UInt64) : Contract (Option Address) := do
  let env ← read
  let round ← getRoundV2 roundId
  failIf (round.status = .Cleared) .AlreadyCleared
  failIf (round.status = .Settled) .AlreadySettled
  failIf (round.status = .Voided) .RoundVoided
  failIf (round.status ≠ .Revealing) .RevealNotOpen
  failIf (env.timestamp ≤ round.revealDeadline) .RevealStillOpen
  if round.mode = .ReceiptOnly then do
    finalizeSubmissions roundId round.bidders
    setRoundV2 roundId { round with status := .Settled }
    return none
  else do
    let f ← get
    let scan := clearScan round.clearingRule
      (fun bidder => (f.store.submissionV2 roundId bidder).bind SubmissionStateV2.validBid)
      round.bidders
    if scan.found = false then do
      let round := { round with status := .Voided }
      setRoundV2 roundId round
      refundAllV2 round roundId
      return none
    else do
      setRoundV2 roundId
        { round with winner := scan.winner, winningBid := scan.best, status := .Cleared }
      return scan.winner

/-- Pay out a cleared auction and hand over the lot. -/
def settleV2 (roundId : UInt64) : Contract Unit := do
  let env ← read
  let _config ← getConfig
  let round ← getRoundV2 roundId
  failIf (round.status = .Settled) .AlreadySettled
  failIf (round.status = .Voided) .RoundVoided
  failIf (round.mode ≠ .Auction ∨ round.status ≠ .Cleared) .NotCleared
  let winner ← okOr round.winner .NoValidBids
  let paymentAsset ← okOr round.paymentAsset .InvalidAmount
  settleBidders (submissionRecords roundId) paymentAsset round.operator winner round.winningBid
    round.bidders
  let lotAsset ← okOr round.lotAsset .InvalidAmount
  transfer lotAsset env.currentContract winner round.lotAmount
  setRoundV2 roundId { round with status := .Settled }

/-- Void a round that never opened, after the grace window. -/
def voidV2 (roundId : UInt64) : Contract Unit := do
  let env ← read
  let round ← getRoundV2 roundId
  failIf (round.status = .Voided) .RoundVoided
  failIf (round.status = .Settled) .AlreadySettled
  failIf (round.status ≠ .Open ∨ env.timestamp ≤ saturatingAdd round.revealDeadline voidGrace)
    .NotVoidable
  let round := { round with status := .Voided }
  setRoundV2 roundId round
  refundAllV2 round roundId

end SubRosa
