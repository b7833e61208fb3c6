import SubRosa.Sdk.Client

/-!
# The receipt-only client of the wallet adapter

`PollarReceiptOnlyClient`: a subclass of the client that overrides some of its
methods. What it does not override it inherits. The adapter checks the
parameters at the call; the client reads them again when it builds the
arguments.
-/

namespace SubRosa.Pollar

open JavaScript Sdk

def receiptOnlyError : ClientError :=
  .receiptOnlyRequired "The initial Pollar adapter supports Sub Rosa ReceiptOnly rounds only."

section

variable (client : SubRosaClient)

def assertReceiptOnlyRound (roundId : Numeric) : Method Unit := do
  let round ← client.getRoundV2 roundId
  .done (if round.mode ≠ .ReceiptOnly then .error receiptOnlyError else .ok ())

/-! ## Overridden methods -/

def createRound (_params : Mutable CreateRoundParams) : Method Value :=
  Coroutine.fail receiptOnlyError

def createRoundV2 (params : Mutable CreateRoundV2Params) : Method Value :=
  if params.atCall.mode ≠ .ReceiptOnly then Coroutine.fail receiptOnlyError
  else client.createRoundV2 params

def createPartnerRoundV2 (params : Mutable CreatePartnerRoundV2Params) : Method Value :=
  if params.atCall.mode ≠ .ReceiptOnly ∨ params.atCall.fixedEscrow ≠ 0 then
    Coroutine.fail receiptOnlyError
  else client.createPartnerRoundV2 params

def createRoundV3 (params : Mutable CreateRoundV3Params) : Method Value :=
  if params.atCall.mode ≠ .ReceiptOnly ∨ params.atCall.fixedEscrow ≠ 0 then
    Coroutine.fail receiptOnlyError
  else client.createRoundV3 params

def commitV2 (params : Mutable CommitV2Params) : Method Value :=
  if params.atCall.escrow ≠ 0 then Coroutine.fail receiptOnlyError else client.commitV2 params

def openRevealV2 (roundId : Numeric) (drandSignature : Bytes) : Method Value := do
  assertReceiptOnlyRound client roundId
  client.openRevealV2 roundId drandSignature

def revealV2 (params : Mutable RevealV2Params) : Method Value := do
  assertReceiptOnlyRound client params.atCall.roundId
  client.revealV2 params.atBuild

def clearV2 (roundId : Numeric) : Method Value := do
  assertReceiptOnlyRound client roundId
  client.clearV2 roundId

/-- Receipt-only rounds settle as part of `clear_v2`. -/
def settleV2 (_roundId : Numeric) : Method Value := Coroutine.fail receiptOnlyError

def voidV2 (roundId : Numeric) : Method Value := do
  assertReceiptOnlyRound client roundId
  client.voidV2 roundId

end

/-! ## All methods -/

/-- A method call on the client with its arguments. A number and a byte string that are read once
are given as they are when they are read. -/
inductive MethodCall
  | createRound (params : Mutable CreateRoundParams)
  | createRoundV2 (params : Mutable CreateRoundV2Params)
  | createPartnerRoundV2 (params : Mutable CreatePartnerRoundV2Params)
  | createRoundV3 (params : Mutable CreateRoundV3Params)
  | commit (params : Mutable CommitParams)
  | commitV2 (params : Mutable CommitV2Params)
  | submitV2 (params : Mutable CommitV2Params)
  | openReveal (roundId : Numeric) (drandSignature : Bytes)
  | openRevealV2 (roundId : Numeric) (drandSignature : Bytes)
  | reveal (params : RevealParams)
  | revealV2 (params : Mutable RevealV2Params)
  | clear (roundId : Numeric)
  | clearV2 (roundId : Numeric)
  | settle (roundId : Numeric)
  | settleV2 (roundId : Numeric)
  | void (roundId : Numeric)
  | voidV2 (roundId : Numeric)
  | getRoundV2 (roundId : Numeric)
  /-- The other reads and the preflights. -/
  | simulation

/-- The method that runs, overridden or inherited. -/
def MethodCall.run (client : SubRosaClient) : MethodCall → Method Unit
  | createRound params => (fun _ => ()) <$> Pollar.createRound params
  | createRoundV2 params => (fun _ => ()) <$> Pollar.createRoundV2 client params
  | createPartnerRoundV2 params => (fun _ => ()) <$> Pollar.createPartnerRoundV2 client params
  | createRoundV3 params => (fun _ => ()) <$> Pollar.createRoundV3 client params
  | commit params => (fun _ => ()) <$> client.commit params
  -- the alias calls the overridden method
  | commitV2 params | submitV2 params => (fun _ => ()) <$> Pollar.commitV2 client params
  | openReveal roundId signature => (fun _ => ()) <$> client.openReveal roundId signature
  | openRevealV2 roundId signature => (fun _ => ()) <$> Pollar.openRevealV2 client roundId signature
  | reveal params => (fun _ => ()) <$> client.reveal params
  | revealV2 params => (fun _ => ()) <$> Pollar.revealV2 client params
  | clear roundId => (fun _ => ()) <$> client.clear roundId
  | clearV2 roundId => (fun _ => ()) <$> Pollar.clearV2 client roundId
  | settle roundId => (fun _ => ()) <$> client.settle roundId
  | settleV2 roundId => (fun _ => ()) <$> Pollar.settleV2 roundId
  | void roundId => (fun _ => ()) <$> client.void roundId
  | voidV2 roundId => (fun _ => ()) <$> Pollar.voidV2 client roundId
  | getRoundV2 roundId => (fun _ => ()) <$> client.getRoundV2 roundId
  | simulation => SubRosaClient.simulation

/-- Calls one after the other; one that throws does not stop the next. -/
def session (client : SubRosaClient) : List MethodCall → Method Unit
  | [] => pure ()
  | call :: calls => do
    let _ ← (call.run client).attempt
    session client calls

end SubRosa.Pollar
