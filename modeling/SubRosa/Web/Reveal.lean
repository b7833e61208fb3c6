import SubRosa.Keeper.Passes
import SubRosa.Sdk.Export
import SubRosa.Web.Pilot

/-!
# The reveal loops of the web client

`revealAll` of `PilotPage.tsx`, with the tests of `pilotConcurrency.ts`, and
`openAndReveal` of `useRoundSession.ts`, once their button is enabled. Both ask
for what a keeper pass asks for; what they show at the end is their value, and
what they show as an error is how they fail. Both load the round again inside
their `try`, so that a load that fails is shown as a failed reveal.
-/

namespace SubRosa.Web

open JavaScript Keeper

/-! ## Errors -/

/-- `errorMessage` of an `Error`. -/
def errorMessage (e : Rejection) : String := e.error.name

def hasContractError (e : Rejection) (code : Nat) (name : String) : Bool :=
  includes (errorMessage e) name || includes (errorMessage e) s!"Contract, #{code}" ||
    includes (errorMessage e) s!"ContractError({code})"

def isRevealAlreadyOpen (e : Rejection) : Bool := hasContractError e 14 "RevealAlreadyOpen"

def isSubmissionAlreadyRevealed (e : Rejection) : Bool := hasContractError e 32 "AlreadyRevealed"

/-- The message that is shown at the end. -/
structure Notice where
  title : String
  text : String

structure RevealClient where
  engine : Engine
  strkey : Sdk.Strkey
  /-- The address of the wallet. -/
  address : Option Address
  /-- The ciphertext that this session has committed. -/
  sealedCiphertext : Option Bytes
  timesTenMillion : Number → Number
  isValidEd25519PublicKey : String → Bool

namespace RevealClient

variable (client : RevealClient) (roundId : Int)

/-- What the openers of the timelock package need. -/
def deps : KeeperDeps := ⟨false, .v2, 0, client.engine⟩

/-- `throw new Error(message)`. -/
def throwNew {α : Type} (message : String) : Pass α :=
  .fail (.ofThrown client.engine (.error message))

/-! ## The pilot page -/

/-- `shortAddress`. -/
def shortAddress (value : String) : String :=
  if value = "" then "None"
  else
    let cs := value.toList
    String.ofList (cs.take 7 ++ "...".toList ++ cs.drop (cs.length - 7))

/-- The view of a bidder, unless nothing is revealed yet. The page reads all bidders at once. -/
def showSubmission (mode : RoundMode) (shown : List PilotSubmissionView) (bidder : Address) :
    Pass (List PilotSubmissionView) := do
  let submission ← ask (.getSubmissionV2 roundId bidder)
  match submission.revealedEnvelope with
  | none => return shown
  | some envelope => do
    let view ← lift client.deps (decodePilotSubmission client.engine client.timesTenMillion
      client.isValidEd25519PublicKey bidder mode envelope submission.valid)
    return shown ++ [view]

/-- The `refresh` of the page while it waits for the network. The policy of the round is read
besides; whether there is one makes no difference here. -/
def refreshPage : Pass (List PilotSubmissionView) := do
  let nextRound ← ask (.getRoundV2 roundId)
  if nextRound.protocolVersion ≠ coreV2Version ∧
      nextRound.protocolVersion ≠ revealPolicyVersion then
    client.throwNew "Unsupported round version"
  else if nextRound.protocolVersion = revealPolicyVersion then do
    let _ ← ask (.getRevealStateV3 roundId)
    nextRound.bidders.foldlM (client.showSubmission roundId nextRound.mode) []
  else nextRound.bidders.foldlM (client.showSubmission roundId nextRound.mode) []

structure RevealCounts where
  revealedCount : Nat
  alreadyRevealedCount : Nat

/-- One round of the loop over the cohort. -/
def revealSubmission (counts : RevealCounts) (bidder : Address) : Pass RevealCounts := do
  let state ← ask (.getSubmissionV2 roundId bidder)
  if state.revealedEnvelope.isSome then
    return { counts with alreadyRevealedCount := counts.alreadyRevealedCount + 1 }
  else do
    let stored ← ask (.getSealV2 roundId bidder)
    match stored with
    | none =>
      let short := shortAddress (client.strkey.encode bidder)
      client.throwNew s!"Encrypted submission is unavailable for {short}"
    | some payload => do
      let envelope ← call (openPayload client.deps payload.ciphertext)
      let r ← (sdkRevealV2 client.deps roundId bidder envelope).attempt
      match r with
      | .ok _ => return { counts with revealedCount := counts.revealedCount + 1 }
      | .error e =>
        if isSubmissionAlreadyRevealed e then
          return { counts with alreadyRevealedCount := counts.alreadyRevealedCount + 1 }
        else .fail e

def revealCohort (revealWasAlreadyOpen : Bool) : Pass Notice := do
  let bidders ← ask (.getBiddersV2 roundId)
  let counts ← bidders.foldlM (client.revealSubmission roundId) ⟨0, 0⟩
  let _ ← client.refreshPage roundId
  if 0 < counts.revealedCount then
    return ⟨"Decryption complete", s!"{counts.revealedCount} submission(s) revealed"⟩
  else
    return ⟨if revealWasAlreadyOpen then "Reveal already opened" else "Nothing new to reveal",
      if counts.alreadyRevealedCount = bidders.length then "All submissions are already public."
      else "Round state was refreshed."⟩

/-- Whether somebody else was faster. -/
def openFirst (signature : Bytes) : Pass Bool := do
  let r ← (ask (.openRevealV2 roundId signature)).attempt
  match r with
  | .ok _ => return false
  | .error e => if isRevealAlreadyOpen e then return true else .fail e

def revealAll : Pass Notice := do
  let current ← ask (.getRoundV2 roundId)
  if current.status = .Open then do
    let signature ← ask (.fetchRoundSignature current.revealRound)
    let revealWasAlreadyOpen ← openFirst roundId signature
    let current ← ask (.getRoundV2 roundId)
    if current.status = .Open then
      client.throwNew "Reveal state has not propagated yet. Refresh and retry."
    else client.revealCohort roundId revealWasAlreadyOpen
  else if current.status = .Revealing then client.revealCohort roundId true
  else do
    let _ ← client.refreshPage roundId
    return ⟨"Reveal phase complete", s!"Round is already {(tag current.status).toLower}."⟩

/-! ## The session of a use case -/

/-- `shortAddr`, with its default length. -/
def shortAddr (addr : String) : String :=
  let cs := addr.toList
  if cs.length ≤ 15 then addr
  else String.ofList (cs.take 6 ++ "…".toList ++ cs.drop (cs.length - 6))

def pendingBid (pending : List Address) (bidder : Address) : Pass (List Address) := do
  let state ← ask (.getBidState roundId bidder)
  return if state.revealedValue.isSome then pending else pending ++ [bidder]

/-- The ciphertext of the seal, or the one that this wallet has kept. -/
def ciphertextOf (bidder : Address) (stored : Option Seal) : Option Bytes :=
  match stored with
  | some payload => some payload.ciphertext
  | none => if client.address = some bidder then client.sealedCiphertext else none

structure RevealProgress where
  revealed : Nat
  skipped : List String

/-- One round of the loop over the pending bids. -/
def revealPending (progress : RevealProgress) (bidder : Address) : Pass RevealProgress := do
  let stored ← ask (.getSeal roundId bidder)
  match client.ciphertextOf bidder stored with
  | none =>
    let short := shortAddr (client.strkey.encode bidder)
    return { progress with skipped := progress.skipped ++ [s!"{short}: seal expired or missing"] }
  | some ciphertext => do
    let opened ← call (openBid client.deps ciphertext)
    ask (.reveal roundId bidder opened.value opened.nonce)
    return { progress with revealed := progress.revealed + 1 }

/-- What the session keeps of a round. -/
structure LiveRound where
  round : Round
  bidders : List Address
  bidStates : List (Address × BidState)

def readBidState (bidStates : List (Address × BidState)) (bidder : Address) :
    Pass (List (Address × BidState)) := do
  let state : BidState ← ask (.getBidState roundId bidder)
  return bidStates ++ [(bidder, state)]

/-- The `refresh` of the session. -/
def refreshSession : Pass LiveRound := do
  let round ← ask (.getRound roundId)
  let bidders ← ask (.bidders roundId)
  let bidStates ← bidders.foldlM (readBidState roundId) []
  return ⟨round, bidders, bidStates⟩

/-- The message when nothing was revealed. -/
def nothingRevealed (pending : List Address) (skipped : List String) : String :=
  if 0 < pending.length then
    let detail :=
      if 0 < skipped.length then "; ".intercalate skipped
      else s!"{pending.length} pending bid(s) could not be opened."
    s!"Reveal gate is open but no ciphertext could be decrypted. {detail}"
  else "All bids are already revealed."

def revealBids (status : Status) : Pass Notice :=
  if status ≠ .Revealing then client.throwNew s!"Round is {tag status}, not Revealing."
  else do
    let bidders ← ask (.bidders roundId)
    let pending ← bidders.foldlM (pendingBid roundId) []
    if pending.length = 0 ∧ bidders.length = 0 then
      client.throwNew ("No sealed entries on-chain for this round. " ++
        "Commit your bid before Drand R, then open + reveal.")
    else do
      let progress ← pending.foldlM (client.revealPending roundId) ⟨0, []⟩
      if progress.revealed = 0 then
        client.throwNew (nothingRevealed pending progress.skipped)
      else do
        let _ ← refreshSession roundId
        let ending := if progress.revealed = 1 then "y" else "ies"
        return ⟨"Reveal complete", s!"{progress.revealed} entr{ending} opened permissionlessly"⟩

def openAndReveal : Pass Notice := do
  let round ← ask (.getRound roundId)
  if round.status = .Open then do
    let signature ← ask (.fetchRoundSignature round.revealRound)
    ask (.openReveal roundId signature)
    let round ← ask (.getRound roundId)
    client.revealBids roundId round.status
  else client.revealBids roundId round.status

end RevealClient

end SubRosa.Web
