import SubRosa.Contract.Calls
import SubRosa.Library.FirstBest

/-!
# The sealed round

What a round of any generation is for, with the storage layout taken away: an
ordered list of bidders, one sealed entry each, custody of the escrows and the
lot, one winner. A step says everything a call can do to a round, guards
included, with the transfers it makes. Amounts are integers and times are
natural numbers here.
-/

namespace SubRosa

open MachineInt TokenLedger BigEndian

/-- How a recorded preimage is read. -/
inductive Format
  | bid
  | envelope
  deriving DecidableEq

/-- The preimage carries this optional amount. -/
def Format.Reads : Format → Bytes → Option Int → Prop
  | .bid, x, amount => ∃ v n, x = bidPreimage v n ∧ amount = some v.toInt
  | .envelope, x, amount => ∃ p, decodeEnvelope x = .ok p ∧ amount = p.amount.map I128.toInt

/-- Fixed at creation. -/
structure Terms where
  operator : Address
  payment : Option Address
  lot : Option (Address × Int)
  rule : ClearingRule
  format : Format
  capacity : Nat
  revealRound : Nat
  commitDeadline : Nat
  revealDeadline : Nat

/-- Scheduled second of the round's Drand round, without a bound on its size. -/
def Terms.drandTime (terms : Terms) (config : GlobalConfig) : Int :=
  config.drandGenesis.toNat + config.drandPeriod.toNat * ((terms.revealRound : Int) - 1)

structure Entry where
  commitment : BytesN 32
  escrow : Int
  opened : Option Bytes
  amount : Option Int
  valid : Bool
  settled : Bool

@[ext] structure SealedRound where
  terms : Terms
  status : Status
  bidders : List Address
  entry : Address → Option Entry
  winner : Option Address
  winningBid : Int

/-! ## Winner selection -/

/-- `u` beats `v`. -/
def ClearingRule.Better : ClearingRule → Int → Int → Prop
  | .HighestBid, u, v => v < u
  | .LowestBid, u, v => u < v

instance (rule : ClearingRule) : DecidableRel rule.Better := fun u v =>
  match rule with
  | .HighestBid => inferInstanceAs (Decidable (v < u))
  | .LowestBid => inferInstanceAs (Decidable (u < v))

instance (rule : ClearingRule) : IsStrictTotalOrder Int rule.Better :=
  match rule with
  | .HighestBid => inferInstanceAs (IsStrictTotalOrder Int (· > ·))
  | .LowestBid => inferInstanceAs (IsStrictTotalOrder Int (· < ·))

/-- The amount an entry competes with. -/
def Entry.validBid (e : Entry) : Option Int := if e.valid = true then e.amount else none

def SealedRound.validBid (r : SealedRound) (b : Address) : Option Int :=
  (r.entry b).bind Entry.validBid

/-- The first best valid bid. -/
def SealedRound.best (r : SealedRound) : Option (Address × Int) :=
  FirstBest.scan r.terms.rule.Better r.validBid r.bidders

/-! ## Entries -/

/-- Escrow is positive in an auction and zero otherwise. -/
def Terms.EscrowOk (terms : Terms) (escrow : Int) : Prop :=
  match terms.payment with
  | some _ => 0 < escrow
  | none => escrow = 0

/-- An auction admits an amount within the escrow; an envelope's is positive. -/
def Terms.Admits (terms : Terms) (escrow : Int) (amount : Option Int) : Prop :=
  match terms.payment with
  | some _ => ∃ v, amount = some v ∧ v ≤ escrow ∧ (terms.format = .envelope → 0 < v)
  | none => True

/-- Whether an opened entry competes. -/
def Terms.validates (terms : Terms) (amount : Option Int) : Bool :=
  match terms.format with
  | .bid => amount.any fun v => decide (0 < v)
  | .envelope => true

def Entry.fresh (commitment : BytesN 32) (escrow : Int) : Entry :=
  ⟨commitment, escrow, none, none, false, false⟩

def Entry.close (e : Entry) : Entry := { e with settled := true }

@[simp] theorem Entry.close_validBid (e : Entry) : e.close.validBid = e.validBid := rfl
@[simp] theorem Entry.close_escrow (e : Entry) : e.close.escrow = e.escrow := rfl

/-! ## Changes of a round -/

namespace SealedRound

variable (contract : Address) (r : SealedRound)

def escrowOf (b : Address) : Int := ((r.entry b).map Entry.escrow).getD 0

/-- A bidder enters or overwrites; an overwrite keeps the place in the list. -/
def enter (b : Address) (e : Entry) : SealedRound :=
  { r with
    bidders := if b ∈ r.bidders then r.bidders else r.bidders ++ [b]
    entry := Function.update r.entry b (some e) }

def setEntry (b : Address) (e : Entry) : SealedRound :=
  { r with entry := Function.update r.entry b (some e) }

def withStatus (status : Status) : SealedRound := { r with status }

/-- Mark every entry settled. -/
def close (status : Status) : SealedRound :=
  { r with status, entry := fun b => (r.entry b).map Entry.close }

/-- A voided round; only an auction marks its entries. -/
def voided : SealedRound :=
  match r.terms.payment with
  | some _ => r.close .Voided
  | none => r.withStatus .Voided

/-! ## Transfers of a round -/

/-- A positive amount of the payment asset from the contract. -/
def pay (target : Address) (amount : Int) : List Transfer :=
  match r.terms.payment with
  | some asset => if 0 < amount then [⟨asset, contract, target, amount⟩] else []
  | none => []

/-- The escrow of a bidder into the contract. -/
def lock (b : Address) (amount : Int) : List Transfer :=
  match r.terms.payment with
  | some asset => [⟨asset, b, contract, amount⟩]
  | none => []

def lotTo (target : Address) : List Transfer :=
  match r.terms.lot with
  | some (asset, amount) => [⟨asset, contract, target, amount⟩]
  | none => []

def lotFrom (source : Address) : List Transfer :=
  match r.terms.lot with
  | some (asset, amount) => [⟨asset, source, contract, amount⟩]
  | none => []

def refunds : List Transfer :=
  (r.bidders.flatMap fun b => r.pay contract b (r.escrowOf b)) ++ r.lotTo contract r.terms.operator

/-- What settlement pays because of one bidder. -/
def payoutOf (w b : Address) : List Transfer :=
  match r.terms.payment with
  | some asset =>
      if b = w then
        ⟨asset, contract, r.terms.operator, r.winningBid⟩ ::
          r.pay contract b (r.escrowOf b - r.winningBid)
      else r.pay contract b (r.escrowOf b)
  | none => []

def payouts (w : Address) : List Transfer :=
  (r.bidders.flatMap fun b => r.payoutOf contract w b) ++ r.lotTo contract w

/-! ## Where the money of a round is -/

/-- The exchange of a settled auction: the bid for the lot. -/
def sale (w : Address) : List Transfer :=
  match r.terms.payment with
  | some asset =>
      ⟨asset, w, r.terms.operator, r.winningBid⟩ ::
        (match r.terms.lot with
          | some (asset, amount) => [⟨asset, r.terms.operator, w, amount⟩]
          | none => [])
  | none => []

/-- The escrow or the lot of the round can still be in custody. -/
def Live : Prop := r.status = .Open ∨ r.status = .Revealing ∨ r.status = .Cleared

instance : Decidable r.Live := inferInstanceAs (Decidable (_ ∨ _ ∨ _))

/-- Everything a live round has taken in. -/
def custody : List Transfer :=
  (r.bidders.flatMap fun b => r.lock contract b (r.escrowOf b)) ++
    r.lotFrom contract r.terms.operator

/-- The net effect of the round so far: its custody while it is live, the sale
once settled, nothing once voided. -/
def position : List Transfer :=
  match r.status with
  | .Settled => (r.winner.map r.sale).getD []
  | .Voided => []
  | _ => r.custody contract

end SealedRound

/-! ## Steps -/

/-- What a call asks of a round. -/
inductive Action
  | commit (bidder : Address) (commitment : BytesN 32) (escrow : Int)
  | opening
  | reveal (bidder : Address) (preimage : Bytes)
  | clear
  | settle
  | void
  deriving DecidableEq

/-- One successful call at time `t` on an existing round. -/
inductive Transition (host : Host) (t : Nat) (r : SealedRound) :
    Action → List Transfer → SealedRound → Prop
  | commit (b : Address) (commitment : BytesN 32) (escrow : Int) :
      r.status = .Open → t ≤ r.terms.commitDeadline → b ≠ host.currentContract →
      (b ∈ r.bidders ∨ r.bidders.length < r.terms.capacity) → r.terms.EscrowOk escrow →
      Transition host t r (.commit b commitment escrow)
        (r.pay host.currentContract b (r.escrowOf b) ++ r.lock host.currentContract b escrow)
        (r.enter b (Entry.fresh commitment escrow))
  | opening :
      r.status = .Open → r.terms.commitDeadline < t →
      Transition host t r .opening [] (r.withStatus .Revealing)
  | reveal (b : Address) (e : Entry) (x : Bytes) (amount : Option Int) :
      r.status = .Revealing → t ≤ r.terms.revealDeadline → r.entry b = some e →
      e.opened = none → host.sha256 x = e.commitment → r.terms.format.Reads x amount →
      r.terms.Admits e.escrow amount →
      Transition host t r (.reveal b x) [] (r.setEntry b
        { e with opened := some x, amount, valid := r.terms.validates amount })
  | clear (w : Address) (bid : Int) :
      r.status = .Revealing → r.terms.revealDeadline < t → r.terms.payment.isSome = true →
      r.best = some (w, bid) →
      Transition host t r .clear []
        { r with winner := some w, winningBid := bid, status := .Cleared }
  | clearVoid :
      r.status = .Revealing → r.terms.revealDeadline < t → r.terms.payment.isSome = true →
      r.best = none →
      Transition host t r .clear (r.refunds host.currentContract) r.voided
  | finalize :
      r.status = .Revealing → r.terms.revealDeadline < t → r.terms.payment = none →
      Transition host t r .clear [] (r.close .Settled)
  | settle (w : Address) :
      r.status = .Cleared → r.winner = some w → r.terms.payment.isSome = true →
      Transition host t r .settle (r.payouts host.currentContract w) (r.close .Settled)
  | void :
      r.status = .Open → r.terms.revealDeadline + 3600 < t →
      Transition host t r .void (r.refunds host.currentContract) r.voided

/-- A round as creation leaves it, at time `t`. -/
structure Created (host : Host) (config : GlobalConfig) (t : Nat) (r : SealedRound) : Prop where
  status : r.status = .Open
  bidders : r.bidders = []
  entry : ∀ b, r.entry b = none
  winner : r.winner = none
  winningBid : r.winningBid = 0
  operator : r.terms.operator ≠ host.currentContract
  lot : ∀ asset amount, r.terms.lot = some (asset, amount) → 0 < amount
  auction : r.terms.payment = none → r.terms.lot = none
  opens : t < r.terms.commitDeadline
  scheduled : r.terms.revealRound ≠ 0
  beforeDrand : (r.terms.commitDeadline : Int) < r.terms.drandTime config
  afterDrand : r.terms.drandTime config < r.terms.revealDeadline

end SubRosa
