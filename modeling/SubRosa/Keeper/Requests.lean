import SubRosa.Keeper.Errors
import SubRosa.Keeper.SettlementGuard
import SubRosa.Keeper.Store
import SubRosa.Library.Exclusion
import SubRosa.Sdk.Envelope

/-!
# What a keeper pass asks for

A pass is a coroutine: it reads the clock and changes the settlement guard and
the queue between two awaits, and it awaits answers from the chain, from Drand
and from the process it runs in. What an awaited function of the client does
inside is left to the answer.
-/

namespace SubRosa.Keeper

open JavaScript

/-- What an instance of the keeper holds in memory. -/
structure Memory where
  /-- Seconds of the local clock. -/
  clock : Nat
  stopping : Bool
  guard : SettlementGuard
  store : StoreData

/-- A bid as `openBid` returns it. -/
structure OpenedBid where
  value : Int
  nonce : Bytes

inductive Request
  /-- The hop that follows the end of an awaited function. -/
  | turn
  | sleep
  | waitForRound (round : UInt64) (maxWaitSeconds : Nat)
  | fetchRoundSignature (round : UInt64)
  | timelockDecrypt (ciphertext : Bytes)
  | getRound (roundId : Int)
  | getRoundV2 (roundId : Int)
  | getRevealStateV3 (roundId : Int)
  | getBidState (roundId : Int) (bidder : Address)
  | getSubmissionV2 (roundId : Int) (bidder : Address)
  | bidders (roundId : Int)
  | getBiddersV2 (roundId : Int)
  | getSeal (roundId : Int) (bidder : Address)
  | getSealV2 (roundId : Int) (bidder : Address)
  | openReveal (roundId : Int) (signature : Bytes)
  | openRevealV2 (roundId : Int) (signature : Bytes)
  | reveal (roundId : Int) (bidder : Address) (value : Int) (nonce : Bytes)
  | revealV2 (roundId : Int) (bidder : Address) (envelope : Bytes)
  | clear (roundId : Int)
  | clearV2 (roundId : Int)
  | settle (roundId : Int)
  | settleV2 (roundId : Int)
  | void (roundId : Int)
  | voidV2 (roundId : Int)

def Request.Answer : Request → Type
  | waitForRound _ _ => Bool
  | fetchRoundSignature _ => Bytes
  | timelockDecrypt _ => Bytes
  | getRound _ => Round
  | getRoundV2 _ => RoundV2
  | getRevealStateV3 _ => RevealStateV3
  | getBidState _ _ => BidState
  | getSubmissionV2 _ _ => SubmissionStateV2
  | bidders _ => List Address
  | getBiddersV2 _ => List Address
  | getSeal _ _ => Option Seal
  | getSealV2 _ _ => Option Seal
  | clear _ => Option Address
  | clearV2 _ => Option Address
  | turn | sleep | openReveal _ _ | openRevealV2 _ _ | reveal _ _ _ _ | revealV2 _ _ _
  | settle _ | settleV2 _ | void _ | voidV2 _ => Unit

/-- An asynchronous function of the keeper. -/
abbrev Pass := Coroutine Memory Request Request.Answer Rejection

inductive ProtocolVersion
  | v1
  | v2
  deriving DecidableEq

structure KeeperDeps where
  /-- A settlement guard is given. -/
  settlementGuard : Bool
  protocolVersion : ProtocolVersion
  maxWaitSeconds : Nat
  engine : Engine

/-- `await q`. -/
def ask (q : Request) : Pass q.Answer := .request q

/-- `await` of another asynchronous function. -/
def call {α : Type} (x : Pass α) : Pass α := do
  let r ← x.attempt
  ask .turn
  .done r

/-- A synchronous computation that can throw. -/
def lift {α : Type} (deps : KeeperDeps) (x : Except Thrown α) : Pass α :=
  match x with
  | .ok a => pure a
  | .error e => .fail (.ofThrown deps.engine e)

/-- `Math.floor(Date.now() / 1000)`. -/
def nowSeconds : Pass Nat := .inspect Memory.clock

def changeGuard (deps : KeeperDeps) (f : SettlementGuard → SettlementGuard) : Pass Unit :=
  if deps.settlementGuard then .change fun m => { m with guard := f m.guard } else pure ()

def changeStore (f : StoreData → StoreData) : Pass Unit :=
  .change fun m => { m with store := f m.store }

/-! ## The openers -/

/-- The value and the nonce of a 48-byte preimage. -/
def decodeBidPreimage (preimage : Bytes) : Except Thrown OpenedBid := do
  Sdk.throwIf (preimage.length ≠ Sdk.preimageBytes)
    s!"preimage must be {Sdk.preimageBytes} bytes, got {preimage.length}"
  return ⟨← Sdk.beBytesToI128 (preimage.take Sdk.valueBytes), preimage.drop Sdk.valueBytes⟩

def openBid (deps : KeeperDeps) (ciphertext : Bytes) : Pass OpenedBid := do
  let plaintext ← ask (.timelockDecrypt ciphertext)
  lift deps (decodeBidPreimage plaintext)

def openPayload (deps : KeeperDeps) (ciphertext : Bytes) : Pass Sdk.PayloadEnvelope := do
  let plaintext ← ask (.timelockDecrypt ciphertext)
  lift deps (Sdk.decodePayloadEnvelope plaintext)

/-- `sdk.revealV2`: the envelope is encoded before it is sent. -/
def sdkRevealV2 (deps : KeeperDeps) (roundId : Int) (bidder : Address)
    (envelope : Sdk.PayloadEnvelope) : Pass Unit := do
  let bytes ← lift deps (Sdk.encodePayloadEnvelope envelope)
  ask (.revealV2 roundId bidder bytes)

end SubRosa.Keeper
