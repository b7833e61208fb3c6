import SubRosa.Contract.Payouts
import SubRosa.Contract.Drand

/-!
# Entry points of the first generation

`create_round` to `void` of `lib.rs`, check for check in source order. Event
publication is left out.
-/

namespace SubRosa

open MachineInt Invocation BigEndian

/-- One-time deploy configuration. -/
def construct (config : GlobalConfig) : Contract Unit := do
  let f ← get
  failIf (f.store.config.isSome = true) .AlreadyInitialized
  setConfig config

/-- The arguments the creation entry points share. -/
structure RoundArgs where
  operator : Address
  itemRef : BytesN 32
  revealRound : UInt64
  clearingRule : ClearingRule
  commitDeadline : UInt64
  revealDeadline : UInt64
  auditorPubkey : Bytes

def RoundArgs.newRound (args : RoundArgs) : Round where
  operator := args.operator
  itemRef := args.itemRef
  revealRound := args.revealRound
  clearingRule := args.clearingRule
  commitDeadline := args.commitDeadline
  revealDeadline := args.revealDeadline
  auditorPubkey := args.auditorPubkey
  status := .Open
  bidders := []
  winner := none
  winningBid := 0

/-- Open a new sealed round. -/
def createRound (args : RoundArgs) : Contract UInt64 := do
  let env ← read
  requireAuth args.operator
  let config ← getConfig
  failIf (args.revealRound = 0) .InvalidAmount
  failIf (maxAuditorPubkey < args.auditorPubkey.length) .PayloadTooLarge
  let tReveal := timeOfRound config args.revealRound
  failIf (tReveal ≤ args.commitDeadline) .CommitDeadlineAfterReveal
  failIf (args.revealDeadline ≤ tReveal) .CommitDeadlineAfterReveal
  failIf (args.commitDeadline ≤ env.timestamp) .DeadlineInPast
  let roundId ← nextRoundId
  setRound roundId args.newRound
  return roundId

/-- Refund the prior escrow of an overwrite, or enter a new bidder; returns
the bidder list after it. -/
def enterOrRefund (round : Round) (roundId : UInt64) (bidder usdc : Address) :
    Contract (List Address) := do
  match ← tryGetState roundId bidder with
  | some prev => do
    payPositive usdc bidder prev.escrow
    return round.bidders
  | none => do
    failIf (maxBidders ≤ round.bidders.length) .RoundFull
    return round.bidders ++ [bidder]

/-- Submit or, before the deadline, overwrite a sealed bid and lock escrow. -/
def commit (roundId : UInt64) (bidder : Address) (commitment : BytesN 32) (ciphertext : Bytes)
    (escrow : I128) (auditorBlob : Bytes) : Contract Unit := do
  let env ← read
  requireAuth bidder
  let config ← getConfig
  let round ← getRound roundId
  failIf (round.status = .Voided) .RoundVoided
  failIf (round.status = .Settled) .AlreadySettled
  failIf (round.status ≠ .Open) .WrongStatus
  failIf (round.commitDeadline < env.timestamp) .CommitClosed
  failIf (escrow ≤ 0) .InvalidAmount
  failIf (maxCiphertext < ciphertext.length ∨ maxAuditorBlob < auditorBlob.length)
    .PayloadTooLarge
  let bidders ← enterOrRefund round roundId bidder config.usdc
  transfer config.usdc bidder env.currentContract escrow
  setState roundId bidder
    { commitment, escrow, revealedValue := none, revealedNonce := none, valid := false,
      settled := false }
  setSeal roundId bidder ⟨ciphertext, auditorBlob⟩ round.revealDeadline
  setRound roundId { round with bidders }

/-- Open the reveal window with a signature of the round's Drand round. -/
def openReveal (roundId : UInt64) (drandSignature : BytesN 96) : Contract Unit := do
  let env ← read
  let config ← getConfig
  let round ← getRound roundId
  failIf (round.status = .Settled) .AlreadySettled
  failIf (round.status = .Voided) .RoundVoided
  failIf (round.status = .Cleared) .AlreadyCleared
  failIf (round.status ≠ .Open) .RevealAlreadyOpen
  failIf (env.timestamp ≤ round.commitDeadline) .CommitNotClosed
  let verified ← verifyRound config round.revealRound drandSignature
  failIf (verified = false) .InvalidDrandSignature
  extendRoundSeals roundId round.bidders round.revealDeadline
  setRound roundId { round with status := .Revealing }

/-- `be16(value) ‖ nonce`. -/
def bidPreimage (value : I128) (nonce : BytesN 32) : Bytes := toBeBytes value ++ nonce.val

theorem bidPreimage_inj {v v' : I128} {n n' : BytesN 32} :
    bidPreimage v n = bidPreimage v' n' ↔ v = v' ∧ n = n' := by
  unfold bidPreimage
  constructor
  · intro h
    obtain ⟨hv, hn⟩ := List.append_inj h (by simp)
    exact ⟨toBeBytes_injective hv, Subtype.ext hn⟩
  · rintro ⟨rfl, rfl⟩
    rfl

/-- Record a bid that hashes to its commitment. Anyone may call it. -/
def reveal (roundId : UInt64) (bidder : Address) (value : I128) (nonce : BytesN 32) :
    Contract Unit := do
  let env ← read
  let round ← getRound roundId
  failIf (round.status = .Settled) .AlreadySettled
  failIf (round.status = .Voided) .RoundVoided
  failIf (round.status ≠ .Revealing) .RevealNotOpen
  failIf (round.revealDeadline < env.timestamp) .RevealWindowClosed
  let state ← getState roundId bidder
  failIf (state.revealedValue.isSome = true) .AlreadyRevealed
  failIf (env.sha256 (bidPreimage value nonce) ≠ state.commitment) .HashMismatch
  failIf (state.escrow < value) .BidExceedsEscrow
  setState roundId bidder
    { state with
      revealedValue := some value
      revealedNonce := some nonce
      valid := decide (0 < value) }

/-- Refund every locked escrow of a voided round. -/
def refundAll (round : Round) (roundId : UInt64) : Contract Unit := do
  let f ← get
  match f.store.config with
  | none => pure ()
  | some config => refundBidders (stateRecords roundId) config.usdc round.bidders

/-- Determine the winner after the reveal deadline, or void the round. -/
def clear (roundId : UInt64) : Contract (Option Address) := do
  let env ← read
  let round ← getRound roundId
  failIf (round.status = .Cleared) .AlreadyCleared
  failIf (round.status = .Settled) .AlreadySettled
  failIf (round.status = .Voided) .RoundVoided
  failIf (round.status ≠ .Revealing) .RevealNotOpen
  failIf (env.timestamp ≤ round.revealDeadline) .RevealStillOpen
  let f ← get
  let scan := clearScan round.clearingRule
    (fun bidder => (f.store.state roundId bidder).bind BidState.validBid) round.bidders
  if scan.found = false then do
    let round := { round with status := .Voided }
    setRound roundId round
    refundAll round roundId
    return none
  else do
    setRound roundId
      { round with winner := scan.winner, winningBid := scan.best, status := .Cleared }
    return scan.winner

/-- Pay out a cleared round. -/
def settle (roundId : UInt64) : Contract Unit := do
  let config ← getConfig
  let round ← getRound roundId
  failIf (round.status = .Settled) .AlreadySettled
  failIf (round.status = .Voided) .RoundVoided
  failIf (round.status ≠ .Cleared) .NotCleared
  let winner ← okOr round.winner .NoValidBids
  settleBidders (stateRecords roundId) config.usdc round.operator winner round.winningBid
    round.bidders
  setRound roundId { round with status := .Settled }

/-- Void a round that never opened, after the grace window. The addition of
the grace is checked and traps when it overflows. -/
def void (roundId : UInt64) : Contract Unit := do
  let env ← read
  let round ← getRound roundId
  failIf (round.status = .Voided) .RoundVoided
  failIf (round.status = .Settled) .AlreadySettled
  failIf (round.status ≠ .Open) .NotVoidable
  let graceEnd ← okOrTrap (checkedAdd round.revealDeadline voidGrace)
  failIf (env.timestamp ≤ graceEnd) .NotVoidable
  let round := { round with status := .Voided }
  setRound roundId round
  refundAll round roundId

end SubRosa
