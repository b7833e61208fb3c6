import SubRosa.Contract.Storage

/-!
# Loops over the bidder list

The winner scan and the payout loops of `lib.rs`. Settlement and the winner
scan are the same code in both generations and are stated once, over any kind
of per-bidder record; the two refund loops set the `settled` flag differently
and keep their own bodies.
-/

namespace SubRosa

open MachineInt Invocation

/-! ## Winner scan -/

/-- The loop variables `winner`, `best` and `found`. -/
structure ClearScan where
  winner : Option Address
  best : I128
  found : Bool
  deriving DecidableEq

/-- One valid bid of the scan. -/
def ClearScan.consider (rule : ClearingRule) (scan : ClearScan) (bidder : Address)
    (value : I128) : ClearScan :=
  let better : Bool :=
    if scan.found = false then true
    else match rule with
      | .HighestBid => decide (scan.best < value)
      | .LowestBid => decide (value < scan.best)
  if better then ⟨some bidder, value, true⟩ else scan

/-- The scan in list order; bidders without a valid bid are passed over. -/
def clearScan (rule : ClearingRule) (validBid : Address → Option I128)
    (bidders : List Address) : ClearScan :=
  bidders.foldl (fun scan bidder =>
    match validBid bidder with
    | some value => scan.consider rule bidder value
    | none => scan) ⟨none, 0, false⟩

/-- The amount the scan uses: absent unless the record is marked valid. -/
def BidState.validBid (state : BidState) : Option I128 :=
  if state.valid = true then state.revealedValue else none

def SubmissionStateV2.validBid (state : SubmissionStateV2) : Option I128 :=
  if state.valid = true then state.revealedAmount else none

/-! ## Payouts -/

/-- What the payout loops read of a record, and the flag they set. -/
class EscrowRecord (S : Type) where
  escrow : S → I128
  settled : S → Bool
  markSettled : S → S

instance : EscrowRecord BidState where
  escrow := BidState.escrow
  settled := BidState.settled
  markSettled s := { s with settled := true }

instance : EscrowRecord SubmissionStateV2 where
  escrow := SubmissionStateV2.escrow
  settled := SubmissionStateV2.settled
  markSettled s := { s with settled := true }

open EscrowRecord

/-- A payout of the contract, skipped when there is nothing to pay. -/
def payPositive (asset target : Address) (amount : I128) : Contract Unit := do
  let env ← read
  if 0 < amount then transfer asset env.currentContract target amount else pure ()

variable {S : Type} [EscrowRecord S]

/-- The winner's bid goes to the operator and the surplus back; a loser's
escrow goes back whole. -/
def payBidder (asset operator winner : Address) (winningBid : I128) (bidder : Address)
    (state : S) : Contract Unit := do
  let env ← read
  if bidder = winner then do
    transfer asset env.currentContract operator winningBid
    let surplus ← okOrTrap (I128.checkedSub (escrow state) winningBid)
    payPositive asset bidder surplus
  else payPositive asset bidder (escrow state)

/-- The loop of `settle` and `settle_v2`. -/
def settleBidders (R : Records S) (asset operator winner : Address) (winningBid : I128)
    (bidders : List Address) : Contract Unit :=
  forM bidders fun bidder => do
    match ← R.tryGet bidder with
    | none => pure ()
    | some state =>
      if settled state = true then pure ()
      else do
        payBidder asset operator winner winningBid bidder state
        R.set bidder (markSettled state)

/-- The loop of `refund_all`: a record is marked only when it is paid. -/
def refundBidders (R : Records S) (asset : Address) (bidders : List Address) : Contract Unit :=
  forM bidders fun bidder => do
    let env ← read
    match ← R.tryGet bidder with
    | none => pure ()
    | some state =>
      if settled state = false ∧ 0 < escrow state then do
        transfer asset env.currentContract bidder (escrow state)
        R.set bidder (markSettled state)
      else pure ()

/-- The loop of `refund_all_v2`: every record found is marked. -/
def refundBiddersV2 (R : Records S) (asset : Address) (bidders : List Address) :
    Contract Unit :=
  forM bidders fun bidder => do
    let env ← read
    match ← R.tryGet bidder with
    | none => pure ()
    | some state => do
      if settled state = false ∧ 0 < escrow state then
        transfer asset env.currentContract bidder (escrow state)
      else pure ()
      R.set bidder (markSettled state)

end SubRosa
