import SubRosa.Contract.Storage
import SubRosa.Keeper.Errors
import SubRosa.Sdk.Envelope
import SubRosa.Sdk.Templates

/-!
# The pilot page loads a round

`pilotSubmission.ts` and `refresh` of `PilotPage.tsx`. All revealed submissions
are decoded before anything is shown. The reads of one refresh are answered from
one state of the contract, and no other refresh starts meanwhile.
-/

namespace SubRosa.Web

open JavaScript Sdk

structure PilotSubmissionView where
  bidder : Address
  amount : Option String
  timelineDays : Option Number
  approach : Option String
  totalAmount : Option Number
  currency : Option String
  deliverables : Option (List String)
  milestones : Option (List SealedProposalMilestone)
  metadata : JsValue
  payload : Option String
  valid : Bool

inductive PilotTemplate
  | proposal
  | auction
  deriving DecidableEq

/-- What a refresh sets of the state of the page. -/
structure PilotPage where
  round : Option RoundV2
  roundPolicy : Option RoundPolicyV2
  revealState : Option RevealStateV3
  escrow : String
  template : PilotTemplate
  revealedSubmissions : List PilotSubmissionView

/-- `result.unwrap()` of a contract that finds nothing. -/
def unwrap {α : Type} (found : Option α) (e : Error) : Except Thrown α :=
  match found with
  | some a => .ok a
  | none => .error (.error e.name)

section

variable (engine : Engine) (timesTenMillion : Number → Number)
  (isValidEd25519PublicKey : String → Bool)

def decodePilotSubmission (bidder : Address) (mode : RoundMode) (bytes : Bytes) (valid : Bool) :
    Except Thrown PilotSubmissionView := do
  let envelope ← decodePayloadEnvelope bytes
  let amount := envelope.amount.map toString
  match mode with
  | .ReceiptOnly => do
    let proposal ← decodeSealedProposal engine timesTenMillion isValidEd25519PublicKey
      envelope.payload
    return { bidder, amount, timelineDays := some proposal.timelineDays,
             approach := some proposal.approach, totalAmount := proposal.totalAmount,
             currency := proposal.currency, deliverables := proposal.deliverables,
             milestones := proposal.milestones, metadata := proposal.metadata, payload := none,
             valid }
  | .Auction =>
    return { bidder, amount, timelineDays := none, approach := none, totalAmount := none,
             currency := none, deliverables := none, milestones := none, metadata := none,
             payload := if envelope.payload = [] then none else some (textDecode envelope.payload),
             valid }

/-- The view of a bidder, unless nothing is revealed yet. -/
def readSubmission (store : Store) (roundId : UInt64) (mode : RoundMode) (bidder : Address) :
    Except Thrown (Option PilotSubmissionView) := do
  let submission ← unwrap (store.submissionV2 roundId bidder) .BidNotFound
  match submission.revealedEnvelope with
  | none => return none
  | some envelope =>
    return some (← decodePilotSubmission engine timesTenMillion isValidEd25519PublicKey bidder mode
      envelope submission.valid)

def readRevealState (store : Store) (roundId : UInt64) (round : RoundV2) :
    Except Thrown (Option RevealStateV3) :=
  if round.protocolVersion = revealPolicyVersion then
    some <$> unwrap (store.revealV3 roundId) .RevealPolicyMissing
  else .ok none

def refresh (page : PilotPage) (store : Store) (roundId : UInt64) : Except Thrown PilotPage := do
  let nextRound ← unwrap (store.roundV2 roundId) .RoundNotFound
  let nextPolicy := store.policyV2 roundId
  throwIf (nextRound.protocolVersion ≠ coreV2Version ∧
    nextRound.protocolVersion ≠ revealPolicyVersion) "Unsupported round version"
  let nextReveal ← readRevealState store roundId nextRound
  let revealed ← nextRound.bidders.mapM
    (readSubmission engine timesTenMillion isValidEd25519PublicKey store roundId nextRound.mode)
  let escrow := match nextPolicy, nextRound.mode with
    | some policy, .Auction => toString policy.fixedEscrow.toInt
    | _, _ => page.escrow
  return { round := some nextRound, roundPolicy := nextPolicy, revealState := nextReveal, escrow,
           template := if nextRound.mode = .Auction then .auction else .proposal,
           revealedSubmissions := revealed.reduceOption }

end

end SubRosa.Web
