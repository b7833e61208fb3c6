import SubRosa.Keeper.Requests

/-!
# The keeper passes

`keeper.ts`: open, reveal, clear, settle and void, each tolerant of what
somebody else did first. The two generations differ in the calls they make and
in the errors they expect. Logging is left out.
-/

namespace SubRosa.Keeper

open JavaScript

/-- The status tag. -/
def tag : Status → String
  | .Open => "Open"
  | .Revealing => "Revealing"
  | .Cleared => "Cleared"
  | .Settled => "Settled"
  | .Voided => "Voided"

structure SkipRecord where
  bidder : Address
  reason : String

structure KeeperResult where
  roundId : Int
  /-- Empty until the pass ends. -/
  finalStatus : Option Status
  openedReveal : Bool
  revealed : List Address
  skipped : List SkipRecord

namespace KeeperResult

def fresh (roundId : Int) : KeeperResult := ⟨roundId, none, false, [], []⟩

def skip (result : KeeperResult) (bidder : Address) (reason : String) : KeeperResult :=
  { result with skipped := result.skipped ++ [⟨bidder, reason⟩] }

def reveal (result : KeeperResult) (bidder : Address) : KeeperResult :=
  { result with revealed := result.revealed ++ [bidder] }

def finish (result : KeeperResult) (status : Status) : KeeperResult :=
  { result with finalStatus := some status }

end KeeperResult

/-- `IDEMPOTENT_OPEN`. -/
def idempotentOpen : List Error :=
  [.RevealAlreadyOpen, .WrongStatus, .AlreadyCleared, .AlreadySettled, .RoundVoided]

/-- `INVALID_SUBMISSION`. -/
def invalidSubmission : List Error :=
  [.HashMismatch, .MalformedPayload, .InvalidAmount, .BidExceedsEscrow, .UnsupportedVersion,
    .EscrowNotAllowed]

/-- `IDEMPOTENT_REVEAL`. -/
def idempotentReveal : List Error := [.AlreadyRevealed]

/-- The error is one of these contract errors. -/
def isOneOf (e : Rejection) (errors : List Error) : Bool := errorMatches e (errors.map Error.name)

/-! ## Settlement -/

/-- Check and reserve before awaiting the transaction. -/
def submitSettlement (deps : KeeperDeps) (roundId : Int) (submit : Pass Unit) : Pass Bool := do
  let skipped ← reserve deps roundId
  if skipped then return false
  else do
    let r ← submit.attempt
    match r with
    | .ok _ => do
      changeGuard deps fun guard => guard.markTerminal roundId "settled on-chain"
      return true
    | .error e => do
      changeGuard deps fun guard => guard.markRetryable roundId (errorName e)
      .fail e
where
  /-- Whether the guard forbids the settlement; without a guard nothing does. -/
  reserve (deps : KeeperDeps) (roundId : Int) : Pass Bool :=
    if deps.settlementGuard then do
      let check ← .inspect fun m => m.guard.canSettle roundId
      changeGuard deps fun guard => guard.getOrCreate roundId
      if check.isSome then return true
      else do
        changeGuard deps fun guard => guard.markSubmitted roundId
        return false
    else return false

/-! ## Keep -/

/-- Up to `n` tries, a pause after each failure. -/
def fetchSignature (round : UInt64) : Nat → Pass (Option Bytes)
  | 0 => return none
  | n + 1 => do
    let r ← (ask (.fetchRoundSignature round)).attempt
    match r with
    | .ok signature => return some signature
    | .error _ => do
      ask .sleep
      fetchSignature round n

/-- Open the reveal window, unless somebody was faster. -/
def tryOpen (submit : Pass Unit) (result : KeeperResult) : Pass KeeperResult := do
  let r ← submit.attempt
  match r with
  | .ok _ => return { result with openedReveal := true }
  | .error e => if isOneOf e idempotentOpen then return result else .fail e

/-- The reveal of an opened bid. -/
def tryReveal (roundId : Int) (bidder : Address) (opened : OpenedBid)
    (result : KeeperResult) : Pass KeeperResult := do
  let r ← (ask (.reveal roundId bidder opened.value opened.nonce)).attempt
  match r with
  | .ok _ => return result.reveal bidder
  | .error e =>
    if isOneOf e idempotentReveal then return result.skip bidder "already revealed (race)"
    else if isOneOf e [.HashMismatch] then
      return result.skip bidder "hash mismatch (corrupt seal)"
    else if isOneOf e invalidSubmission then
      return result.skip bidder s!"invalid payload: {errorName e}"
    else if isOneOf e [.RevealWindowClosed] then return result.skip bidder "reveal window closed"
    else .fail e

/-- Decrypt and reveal one bid. -/
def keepBidder (deps : KeeperDeps) (roundId : Int) (result : KeeperResult) (bidder : Address) :
    Pass KeeperResult := do
  let r ← (ask (.getBidState roundId bidder)).attempt
  match r with
  | .error e => return result.skip bidder s!"state read failed: {errorName e}"
  | .ok state =>
    if state.revealedValue.isSome then return result.skip bidder "already revealed"
    else do
      let stored ← ask (.getSeal roundId bidder)
      match stored with
      | none => return result.skip bidder "seal expired/absent"
      | some payload => do
        let r ← (call (openBid deps payload.ciphertext)).attempt
        match r with
        | .error e => return result.skip bidder s!"decrypt failed: {errorName e}"
        | .ok opened => tryReveal roundId bidder opened result

/-- Decrypt every seal and reveal it. -/
def keepRevealing (deps : KeeperDeps) (roundId : Int) (result : KeeperResult) (round : Round) :
    Pass KeeperResult :=
  if round.status = .Revealing then do
    let bidders ← ask (.bidders roundId)
    let result ← bidders.foldlM (keepBidder deps roundId) result
    let round ← ask (.getRound roundId)
    return result.finish round.status
  else return result.finish round.status

/-- Run one full keeper pass over a round: open if needed, reveal all. -/
def keepRound (deps : KeeperDeps) (roundId : Int) : Pass KeeperResult := do
  let result := KeeperResult.fresh roundId
  let round ← ask (.getRound roundId)
  if round.status = .Open then do
    let available : Bool ← call (ask (.waitForRound round.revealRound deps.maxWaitSeconds))
    if available = false then return result.finish round.status
    else do
      let signature ← fetchSignature round.revealRound 5
      match signature with
      | none => return result.finish round.status
      | some signature => do
        let result ← tryOpen (ask (.openReveal roundId signature)) result
        let round ← ask (.getRound roundId)
        keepRevealing deps roundId result round
  else keepRevealing deps roundId result round

/-- The reveal of an opened envelope. -/
def tryRevealV2 (deps : KeeperDeps) (roundId : Int) (bidder : Address)
    (envelope : Sdk.PayloadEnvelope) (result : KeeperResult) : Pass KeeperResult := do
  let r ← (sdkRevealV2 deps roundId bidder envelope).attempt
  match r with
  | .ok _ => return result.reveal bidder
  | .error e =>
    if isOneOf e idempotentReveal then return result.skip bidder "already revealed (race)"
    else if isOneOf e invalidSubmission then
      return result.skip bidder s!"invalid or corrupt payload: {errorName e}"
    else if isOneOf e [.RevealWindowClosed] then return result.skip bidder "reveal window closed"
    else .fail e

/-- Decrypt and reveal one submission. -/
def keepSubmission (deps : KeeperDeps) (roundId : Int) (result : KeeperResult)
    (bidder : Address) : Pass KeeperResult := do
  let r ← (ask (.getSubmissionV2 roundId bidder)).attempt
  match r with
  | .error e => return result.skip bidder s!"state read failed: {errorName e}"
  | .ok state =>
    if state.revealedEnvelope.isSome then return result.skip bidder "already revealed"
    else do
      let stored ← ask (.getSealV2 roundId bidder)
      match stored with
      | none => return result.skip bidder "seal expired/absent"
      | some payload => do
        let r ← (call (openPayload deps payload.ciphertext)).attempt
        match r with
        | .error e => return result.skip bidder s!"decrypt failed: {errorName e}"
        | .ok envelope => tryRevealV2 deps roundId bidder envelope result

def keepRevealingV2 (deps : KeeperDeps) (roundId : Int) (result : KeeperResult)
    (round : RoundV2) : Pass KeeperResult :=
  if round.status = .Revealing then do
    let bidders ← ask (.getBiddersV2 roundId)
    let result ← bidders.foldlM (keepSubmission deps roundId) result
    let round ← ask (.getRoundV2 roundId)
    return result.finish round.status
  else return result.finish round.status

/-- `readKeeperRevealState`: version 3 records require their policy. -/
def readKeeperRevealState (deps : KeeperDeps) (roundId : Int) (round : RoundV2) :
    Pass (Option RevealStateV3) :=
  if round.protocolVersion = coreV2Version then return none
  else if round.protocolVersion = revealPolicyVersion then
    some <$> ask (.getRevealStateV3 roundId)
  else lift deps (.error (.error s!"unsupported round protocol {round.protocolVersion}"))

/-- The opening policy of version 3 forbids an attempt now. -/
def opensLater (now : Nat) (round : RoundV2) : Option RevealStateV3 → Bool
  | none => false
  | some state =>
    decide (round.revealDeadline.toNat < now) ||
      match state.policy with
      | .Timed => false
      | .OwnerTriggered fallbackAt => decide (now < fallbackAt.toNat)

/-- Core v2 keeper pass: structured payloads, revealed as complete envelopes. -/
def keepRoundV2 (deps : KeeperDeps) (roundId : Int) : Pass KeeperResult := do
  let result := KeeperResult.fresh roundId
  let round ← ask (.getRoundV2 roundId)
  if round.status = .Open then do
    let state ← call (readKeeperRevealState deps roundId round)
    let now ← nowSeconds
    if opensLater now round state then return result.finish round.status
    else do
      let available : Bool ← call (ask (.waitForRound round.revealRound deps.maxWaitSeconds))
      if available = false then return result.finish round.status
      else do
        let signature ← fetchSignature round.revealRound 5
        match signature with
        | none => return result.finish round.status
        | some signature => do
          let result ← tryOpen (ask (.openRevealV2 roundId signature)) result
          let round ← ask (.getRoundV2 roundId)
          keepRevealingV2 deps roundId result round
  else keepRevealingV2 deps roundId result round

/-! ## Close -/

structure CloseResult where
  roundId : Int
  cleared : Bool
  settled : Bool
  voided : Bool
  winner : Option Address
  finalStatus : Option Status
  skipped : List String

namespace CloseResult

def fresh (roundId : Int) : CloseResult := ⟨roundId, false, false, false, none, none, []⟩

def skip (result : CloseResult) (reason : String) : CloseResult :=
  { result with skipped := result.skipped ++ [reason] }

def finish (result : CloseResult) (status : Status) (winner : Option Address) : CloseResult :=
  { result with
    winner := result.winner.or winner
    finalStatus := some status }

end CloseResult

/-- The errors that make a pass skip its settlement. -/
def settleSkips : List Error := [.AlreadySettled, .NotCleared, .WrongStatus]

/-- Settle a cleared round under the guard; `name` is the call in the skip text. -/
def trySettle (deps : KeeperDeps) (roundId : Int) (submit : Pass Unit) (name : String)
    (result : CloseResult) : Pass CloseResult := do
  let r ← (call (submitSettlement deps roundId submit)).attempt
  match r with
  | .ok true => return { result with settled := true }
  | .ok false =>
    return { result with settled := false }.skip "settlement already submitted or terminal"
  | .error e =>
    if isOneOf e settleSkips then return result.skip s!"{name} skipped: {errorName e}"
    else .fail e

/-- Clear a round whose reveal window has closed. -/
def tryClear (roundId : Int) (result : CloseResult) : Pass CloseResult := do
  let r ← (ask (.clear roundId)).attempt
  match r with
  | .ok winner =>
    return { result with
      cleared := true
      winner := winner
      voided := (winner : Option Address).isNone }
  | .error e =>
    if isOneOf e [.AlreadyCleared, .RevealStillOpen, .WrongStatus, .RoundVoided] then
      return result.skip s!"clear skipped: {errorName e}"
    else .fail e

/-- The settlement phase of `closeRound`. -/
def closeSettling (deps : KeeperDeps) (roundId : Int) (result : CloseResult) (round : Round) :
    Pass CloseResult :=
  match round.status with
  | .Cleared => do
    let result ← trySettle deps roundId (ask (.settle roundId)) "settle" result
    let round ← ask (.getRound roundId)
    return result.finish round.status round.winner
  | .Settled => return (result.skip "already settled").finish round.status round.winner
  | .Voided =>
    return (result.skip "voided (escrow refunded at clear)").finish round.status round.winner
  | _ => return result.finish round.status round.winner

/-- Drive a revealed round to completion: clear, then settle. -/
def closeRound (deps : KeeperDeps) (roundId : Int) : Pass CloseResult := do
  let result := CloseResult.fresh roundId
  let round ← ask (.getRound roundId)
  if round.status = .Revealing then do
    let now ← nowSeconds
    if now ≤ round.revealDeadline.toNat then
      return { result.skip s!"reveal window open until {round.revealDeadline}" with
        finalStatus := some round.status }
    else do
      let result ← tryClear roundId result
      let round ← ask (.getRound roundId)
      closeSettling deps roundId result round
  else closeSettling deps roundId result round

def tryClearV2 (roundId : Int) (result : CloseResult) : Pass CloseResult := do
  let r ← (ask (.clearV2 roundId)).attempt
  match r with
  | .ok winner => return { result with winner := winner, cleared := true }
  | .error e =>
    if isOneOf e [.AlreadyCleared, .AlreadySettled, .RevealStillOpen, .WrongStatus, .RoundVoided]
    then return result.skip s!"clear_v2 skipped: {errorName e}"
    else .fail e

def closeSettlingV2 (deps : KeeperDeps) (roundId : Int) (result : CloseResult)
    (round : RoundV2) : Pass CloseResult :=
  match round.status with
  | .Cleared => do
    let result ← trySettle deps roundId (ask (.settleV2 roundId)) "settle_v2" result
    let round ← ask (.getRoundV2 roundId)
    return result.finish round.status round.winner
  | .Settled =>
    if round.mode = .ReceiptOnly ∧ result.cleared = true then
      return { result with settled := true }.finish round.status round.winner
    else return (result.skip "already settled").finish round.status round.winner
  | .Voided =>
    return ({ result with voided := true }.skip "voided (escrow refunded at clear)").finish
      round.status round.winner
  | _ => return result.finish round.status round.winner

/-- Finalize a Core v2 round; receipt-only rounds complete while clearing. -/
def closeRoundV2 (deps : KeeperDeps) (roundId : Int) : Pass CloseResult := do
  let result := CloseResult.fresh roundId
  let round ← ask (.getRoundV2 roundId)
  if round.status = .Revealing then do
    let now ← nowSeconds
    if now ≤ round.revealDeadline.toNat then
      return { result.skip s!"reveal window open until {round.revealDeadline}" with
        finalStatus := some round.status }
    else do
      let result ← tryClearV2 roundId result
      let round ← ask (.getRoundV2 roundId)
      closeSettlingV2 deps roundId result round
  else closeSettlingV2 deps roundId result round

/-! ## Void -/

def voidGraceSeconds : Nat := 3600

/-- A round as `readKeeperRound` returns it. -/
inductive KeeperRound
  | v1 (round : Round)
  | v2 (round : RoundV2)

namespace KeeperRound

def status : KeeperRound → Status
  | v1 round => round.status
  | v2 round => round.status

def revealDeadline : KeeperRound → UInt64
  | v1 round => round.revealDeadline
  | v2 round => round.revealDeadline

end KeeperRound

def readKeeperRound (deps : KeeperDeps) (roundId : Int) : Pass KeeperRound :=
  match deps.protocolVersion with
  | .v1 => KeeperRound.v1 <$> ask (.getRound roundId)
  | .v2 => KeeperRound.v2 <$> ask (.getRoundV2 roundId)

structure VoidResult where
  roundId : Int
  voided : Bool
  skipped : List String
  finalStatus : Option Status

/-- `sdk.void` of the generation. -/
def submitVoid (deps : KeeperDeps) (roundId : Int) : Pass Unit :=
  match deps.protocolVersion with
  | .v1 => ask (.void roundId)
  | .v2 => ask (.voidV2 roundId)

/-- Void an open round if R never arrived and the grace has elapsed. -/
def voidIfStale (deps : KeeperDeps) (roundId : Int) : Pass VoidResult := do
  let round ← readKeeperRound deps roundId
  if round.status ≠ .Open then
    return ⟨roundId, false, [s!"status {tag round.status}"], some round.status⟩
  else do
    let now ← nowSeconds
    let voidAfter := round.revealDeadline.toNat + voidGraceSeconds
    if now ≤ voidAfter then
      return ⟨roundId, false, [s!"void not yet allowed until {voidAfter}"], some round.status⟩
    else do
      let r ← (submitVoid deps roundId).attempt
      let result ← voidResult r
      let round ← readKeeperRound deps roundId
      return { result with finalStatus := some round.status }
where
  voidResult : Except Rejection Unit → Pass VoidResult
    | .ok _ => return ⟨roundId, true, [], none⟩
    | .error e =>
      if isOneOf e [.NotVoidable, .WrongStatus, .AlreadyCleared, .AlreadySettled, .RoundVoided]
      then return ⟨roundId, false, [errorName e], none⟩
      else .fail e

/-! ## Watch -/

structure WatchTickResult where
  roundId : Int
  keep : Option KeeperResult
  close : Option CloseResult
  void : Option VoidResult
  finalStatus : Status

/-- The keep phase of a tick. -/
def watchKeep (deps : KeeperDeps) (roundId : Int) (round : KeeperRound) :
    Pass (Option KeeperResult × KeeperRound) :=
  if round.status = .Open ∨ round.status = .Revealing then do
    let deps' := { deps with maxWaitSeconds := 0 }
    let keep ← call (match deps.protocolVersion with
      | .v1 => keepRound deps' roundId
      | .v2 => keepRoundV2 deps' roundId)
    let round ← readKeeperRound deps roundId
    return (some keep, round)
  else return (none, round)

/-- The close phase of a tick. -/
def watchClose (deps : KeeperDeps) (roundId : Int) (round : KeeperRound) :
    Pass (Option CloseResult × KeeperRound) :=
  if round.status = .Revealing ∨ round.status = .Cleared then do
    let close ← call (match deps.protocolVersion with
      | .v1 => closeRound deps roundId
      | .v2 => closeRoundV2 deps roundId)
    let round ← readKeeperRound deps roundId
    return (some close, round)
  else return (none, round)

/-- A round that ended on-chain is terminal. -/
def watchMark (deps : KeeperDeps) (roundId : Int) (status : Status) : Pass Unit :=
  if status = .Settled ∨ status = .Voided then
    changeGuard deps fun guard => guard.markTerminal roundId s!"{tag status} on-chain"
  else pure ()

/-- One non-blocking watch pass: void if stale, keep, close. -/
def watchRound (deps : KeeperDeps) (roundId : Int) : Pass WatchTickResult := do
  let voidResult ← call (voidIfStale deps roundId)
  let round ← readKeeperRound deps roundId
  let kept ← watchKeep deps roundId round
  let closed ← watchClose deps roundId kept.2
  watchMark deps roundId closed.2.status
  return ⟨roundId, kept.1, closed.1, if voidResult.voided then some voidResult else none,
    closed.2.status⟩

end SubRosa.Keeper
