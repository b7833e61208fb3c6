import SubRosa.Keeper.Passes

/-!
# The status of a round

`dry-run.ts`, `status.ts` and what they use of `protocol.ts` and `freshness.ts`:
what the keeper reports about a round at a time. The reads go through a reader
that is given. Numbers are natural numbers, as those of the program are below
2^53; a sum beyond it compares with them in the same way.
-/

namespace SubRosa.Keeper

open JavaScript

/-- The methods of later generations are optional. -/
structure KeeperReader where
  getRound : Int → Except Rejection Round
  getBidState : Int → Address → Except Rejection BidState
  getRoundV2 : Option (Int → Except Rejection RoundV2)
  getSubmissionV2 : Option (Int → Address → Except Rejection SubmissionStateV2)
  getRevealStateV3 : Option (Int → Except Rejection RevealStateV3)

def KeeperRound.commitDeadline : KeeperRound → UInt64
  | v1 round => round.commitDeadline
  | v2 round => round.commitDeadline

def KeeperRound.revealRound : KeeperRound → UInt64
  | v1 round => round.revealRound
  | v2 round => round.revealRound

def KeeperRound.bidders : KeeperRound → List Address
  | v1 round => round.bidders
  | v2 round => round.bidders

def KeeperRound.winner : KeeperRound → Option Address
  | v1 round => round.winner
  | v2 round => round.winner

def KeeperRound.winningBid : KeeperRound → MachineInt.I128
  | v1 round => round.winningBid
  | v2 round => round.winningBid

def KeeperRound.clearingRule : KeeperRound → ClearingRule
  | v1 round => round.clearingRule
  | v2 round => round.clearingRule

/-! ## Drand time -/

/-- `Number.isSafeInteger` of a natural number. -/
def isSafe (n : Nat) : Bool := n ≤ 2 ^ 53 - 1

structure DrandRoundInfo where
  genesisTime : Nat
  period : Nat

/-- Unix seconds at which a round is scheduled; round 1 is at genesis. -/
def drandRoundTime (round : Nat) (info : DrandRoundInfo) : Except Thrown Nat := do
  Sdk.throwIf (!isSafe round ∨ round < 1) "Drand round must be a positive safe integer"
  Sdk.throwIf (!isSafe info.genesisTime ∨ !isSafe info.period ∨ info.period = 0)
    "Invalid Drand genesis or period"
  let time := info.genesisTime + info.period * (round - 1)
  Sdk.throwIf (!isSafe time) "Drand round time exceeds safe integer range"
  return time

/-! ## Decisions -/

inductive KeeperDryRunPhase
  | awaitingDrand
  | awaitingOwner
  | awaitingVoid
  | staleOpen
  | revealing
  | awaitingClear
  | readyToClear
  | readyToSettle
  | complete
  deriving DecidableEq

structure KeeperDryRunDecision where
  currentPhase : KeeperDryRunPhase
  nextAction : String

/-- What a third generation round waits for besides Drand. -/
def waitsFor (now revealDeadline voidAfter : Nat) (revealState : Option RevealStateV3) :
    Option KeeperDryRunDecision :=
  match revealState with
  | none => none
  | some state =>
    if voidAfter < now then none
    else if revealDeadline < now then some ⟨.awaitingVoid, s!"void after grace {voidAfter}"⟩
    else
      match state.policy with
      | .OwnerTriggered fallbackAt =>
        if now < fallbackAt.toNat then
          some ⟨.awaitingOwner,
            s!"owner may open after Drand publication; permissionless fallback at {fallbackAt}"⟩
        else none
      | .Timed => none

def decideKeeperDryRunAction (status : Status) (revealDeadline bidderCount : Nat)
    (revealedCount : Option Nat) (nowSeconds : Nat) (revealState : Option RevealStateV3) :
    KeeperDryRunDecision :=
  match status with
  | .Open =>
    let voidAfter := revealDeadline + voidGraceSeconds
    match waitsFor nowSeconds revealDeadline voidAfter revealState with
    | some decision => decision
    | none =>
      if voidAfter < nowSeconds then ⟨.staleOpen, "void stale round"⟩
      else ⟨.awaitingDrand, "open reveal when the configured Drand round is published"⟩
  | .Revealing =>
    if revealDeadline < nowSeconds then ⟨.readyToClear, "clear round"⟩
    else
      match revealedCount with
      | none => ⟨.revealing, "inspect bidder states and reveal pending bids"⟩
      | some revealed =>
        let pending := bidderCount - revealed
        let plural := if pending = 1 then "" else "s"
        if 0 < pending then ⟨.revealing, s!"reveal {pending} pending bidder{plural}"⟩
        else ⟨.awaitingClear, s!"wait for reveal deadline {revealDeadline}"⟩
  | .Cleared => ⟨.readyToSettle, "settle round"⟩
  | .Settled => ⟨.complete, "none — round settled"⟩
  | .Voided => ⟨.complete, "none — round voided and escrow refunded"⟩

/-! ## Reads -/

namespace KeeperReader

variable (engine : Engine) (reader : KeeperReader)

/-- An optional method, or the error of its absence. -/
def method {α : Type} (f : Option α) (message : String) : Except Rejection α :=
  match f with
  | some f => .ok f
  | none => .error (.ofThrown engine (.error message))

def readKeeperRound (roundId : Int) : ProtocolVersion → Except Rejection KeeperRound
  | .v1 => KeeperRound.v1 <$> reader.getRound roundId
  | .v2 => do
    let getRoundV2 ← method engine reader.getRoundV2 "Core v2 reader requires getRoundV2"
    KeeperRound.v2 <$> getRoundV2 roundId

def isRevealed (roundId : Int) (bidder : Address) : ProtocolVersion → Except Rejection Bool
  | .v1 => do return (← reader.getBidState roundId bidder).revealedValue.isSome
  | .v2 => do
    let getSubmissionV2 ←
      method engine reader.getSubmissionV2 "Core v2 reader requires getSubmissionV2"
    return (← getSubmissionV2 roundId bidder).revealedEnvelope.isSome

/-- `null` when a read fails. -/
def countKeeperRevealed (roundId : Int) (bidders : List Address) (version : ProtocolVersion) :
    Option Nat :=
  match bidders.mapM fun bidder => reader.isRevealed engine roundId bidder version with
  | .ok revealed => some (revealed.filter id).length
  | .error _ => none

/-- Version 3 records require their policy. -/
def readKeeperRevealState (roundId : Int) : KeeperRound → Except Rejection (Option RevealStateV3)
  | .v1 _ => .ok none
  | .v2 round =>
    if round.protocolVersion = coreV2Version then .ok none
    else if round.protocolVersion ≠ revealPolicyVersion then
      .error (.ofThrown engine (.error s!"unsupported round protocol {round.protocolVersion}"))
    else do
      let getRevealStateV3 ←
        method engine reader.getRevealStateV3 "v3 reader requires getRevealStateV3"
      return some (← getRevealStateV3 roundId)

end KeeperReader

/-! ## The view of a round -/

inductive RoundStatus
  | known (status : Status)
  | Unknown
  | NotFound
  deriving DecidableEq

inductive SettlementIndicator
  | pending
  | submitted
  | terminal
  | none
  deriving DecidableEq

structure RoundStatusView where
  roundId : Int
  status : RoundStatus
  phase : KeeperDryRunPhase
  nextAction : String
  commitDeadline : Option Nat
  revealDeadline : Option Nat
  revealRound : Option Nat
  revealReady : Bool
  commitClosed : Bool
  revealWindowOpen : Bool
  voidableAfter : Option Nat
  bidderCount : Option Nat
  revealedCount : Option Nat
  winner : Option Address
  winningValue : Option Int
  clearingRule : Option ClearingRule
  settlement : SettlementIndicator
  lastKeeperAction : Option String
  lastError : Option String
  retryCount : Nat

structure BuildRoundStatusArgs where
  protocolVersion : ProtocolVersion
  reader : KeeperReader
  /-- `drand.chain().info()`. -/
  info : Except Rejection DrandRoundInfo
  roundId : Int
  nowSeconds : Nat
  settlement : SettlementIndicator
  watched : Option WatchedRound

/-- A text that matches `/RoundNotFound/i`. -/
def isRoundNotFound (message : String) : Bool :=
  decide ("RoundNotFound".toList.map Char.toLower <:+: message.toList.map Char.toLower)

/-- The view of a round that cannot be read. -/
def unreadStatus (args : BuildRoundStatusArgs) (e : Rejection) : RoundStatusView :=
  let notFound := isRoundNotFound (errorName e)
  { roundId := args.roundId
    status := if notFound then .NotFound else .Unknown
    phase := if notFound then .complete else .awaitingDrand
    nextAction := if notFound then "round does not exist" else "awaiting first keeper tick"
    commitDeadline := none
    revealDeadline := none
    revealRound := none
    revealReady := false
    commitClosed := false
    revealWindowOpen := false
    voidableAfter := none
    bidderCount := none
    revealedCount := none
    winner := none
    winningValue := none
    clearingRule := none
    settlement := args.settlement
    lastKeeperAction := args.watched.bind WatchedRound.lastAction
    lastError := args.watched.bind WatchedRound.lastError
    retryCount := (args.watched.map WatchedRound.retryCount).getD 0 }

/-- Only the operator may open now. -/
def ownerOnly (nowSeconds : Nat) (revealState : Option RevealStateV3) : Bool :=
  match revealState.map RevealStateV3.policy with
  | some (.OwnerTriggered fallbackAt) => nowSeconds < fallbackAt.toNat
  | _ => false

def readStatus (args : BuildRoundStatusArgs) (round : KeeperRound) (revealedCount : Option Nat)
    (publishAtS : Nat) (revealState : Option RevealStateV3) : RoundStatusView :=
  let commitDeadline := round.commitDeadline.toNat
  let revealDeadline := round.revealDeadline.toNat
  let phase := decideKeeperDryRunAction round.status revealDeadline round.bidders.length
    revealedCount args.nowSeconds revealState
  let commitClosed := decide (commitDeadline < args.nowSeconds)
  { roundId := args.roundId
    status := .known round.status
    phase := phase.currentPhase
    nextAction := phase.nextAction
    commitDeadline := some commitDeadline
    revealDeadline := some revealDeadline
    revealRound := some round.revealRound.toNat
    revealReady := decide (round.status = .Open) && commitClosed &&
      decide (publishAtS ≤ args.nowSeconds) && decide (args.nowSeconds ≤ revealDeadline) &&
      !ownerOnly args.nowSeconds revealState
    commitClosed
    revealWindowOpen := decide (round.status = .Revealing ∧ args.nowSeconds ≤ revealDeadline)
    voidableAfter := some (revealDeadline + voidGraceSeconds)
    bidderCount := some round.bidders.length
    revealedCount
    winner := round.winner
    winningValue := some round.winningBid.toInt
    clearingRule := some round.clearingRule
    settlement :=
      if round.status = .Settled ∨ round.status = .Voided then .terminal else args.settlement
    lastKeeperAction := args.watched.bind WatchedRound.lastAction
    lastError := args.watched.bind WatchedRound.lastError
    retryCount := (args.watched.map WatchedRound.retryCount).getD 0 }

def buildRoundStatus (engine : Engine) (args : BuildRoundStatusArgs) :
    Except Rejection RoundStatusView :=
  match args.reader.readKeeperRound engine args.roundId args.protocolVersion with
  | .error e => .ok (unreadStatus args e)
  | .ok round => do
    let revealedCount := args.reader.countKeeperRevealed engine args.roundId round.bidders
      args.protocolVersion
    let info ← args.info
    let publishAtS ←
      (drandRoundTime round.revealRound.toNat info).mapError (Rejection.ofThrown engine)
    let revealState ←
      if round.status = .Open then args.reader.readKeeperRevealState engine args.roundId round
      else .ok none
    return readStatus args round revealedCount publishAtS revealState

end SubRosa.Keeper
