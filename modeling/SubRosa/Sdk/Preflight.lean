import SubRosa.Sdk.Client

/-!
# The preflights of the client

A preflight builds the transaction of a method and simulates it. Each repeats
the arguments of its method; the methods and their preflights are compared by
the call that they build.
-/

namespace SubRosa.Sdk

open JavaScript

inductive PreflightOperation
  | create_round
  | create_round_v2
  | create_round_v3
  | create_partner_round_v2
  | commit
  | commit_v2
  | open_reveal
  | open_reveal_v2
  | reveal
  | reveal_v2
  | clear
  | clear_v2
  | settle
  | settle_v2
  | void
  | void_v2

/-- What goes wrong while a transaction is built. -/
inductive BuildError
  | client (e : ClientError)
  /-- `SubRosaNetworkMismatchError`. -/
  | networkMismatch

inductive PreflightResult
  | ok (operation : PreflightOperation) (result : Value)
  | failed (operation : PreflightOperation) (error : BuildError)

inductive SimulationRequest
  | validateContractNetwork
  | simulate (operation : PreflightOperation) (call : Call)

def SimulationRequest.Answer : SimulationRequest → Type
  | validateContractNetwork => Unit
  | simulate _ _ => PreflightResult

/-- An asynchronous method that submits nothing. -/
abbrev Simulation := Coroutine ClientState SimulationRequest SimulationRequest.Answer BuildError

/-- What is computed without the network. -/
def local? {α : Type} (x : Except ClientError α) : Simulation α := .done (x.mapError .client)

def askNetwork (q : SimulationRequest) : Simulation q.Answer := Coroutine.request q

/-- The network is validated once. -/
def validateSimulation : Simulation Unit := do
  let validated ← Coroutine.inspect ClientState.networkValidated
  if validated then pure ()
  else do
    askNetwork .validateContractNetwork
    Coroutine.change fun _ => ⟨true⟩

/-- `#validatedContractCall` and the simulation of what it builds. -/
def simulateCall (operation : PreflightOperation) (build : Except ClientError Call) :
    Simulation PreflightResult := do
  validateSimulation
  let call ← local? build
  askNetwork (.simulate operation call)

/-- `#preflight`: a configuration error or a wrong network is thrown, any other error is the
result. -/
def preflight (operation : PreflightOperation) (buildTx : Simulation PreflightResult) :
    Simulation PreflightResult := do
  match ← buildTx.attempt with
  | .ok result => return result
  | .error (.client (.config message)) => .fail (.client (.config message))
  | .error .networkMismatch => .fail .networkMismatch
  | .error error => return .failed operation error

namespace SubRosaClient

variable (client : SubRosaClient)

def preflightCreateRound (params : Mutable CreateRoundParams) : Simulation PreflightResult :=
  preflight .create_round do
    let operator ← local? (client.addressOr params.atCall.operator "operator")
    let clearingRule := params.atCall.clearingRule.getD .HighestBid
    let params := params.atBuild
    simulateCall .create_round do
      let revealRound ← toBigInt params.revealRound
      let commitDeadline ← toBigInt params.commitDeadline
      let revealDeadline ← toBigInt params.revealDeadline
      return .createRound {
        operator
        itemRef := ← encoded (client.encoder.bytesN 32 params.itemRef)
        revealRound := ← encoded (client.encoder.u64 revealRound)
        clearingRule
        commitDeadline := ← encoded (client.encoder.u64 commitDeadline)
        revealDeadline := ← encoded (client.encoder.u64 revealDeadline)
        auditorPubkey := params.auditorPubkey }

def preflightCreateRoundV2 (params : Mutable CreateRoundV2Params) : Simulation PreflightResult :=
  preflight .create_round_v2 do
    let operator ← local? (client.addressOr params.atCall.operator "operator")
    simulateCall .create_round_v2 do
      let (round, settlement) ← v2RoundArgs params.atBuild operator
      return .createRoundV2 (← round.encode client.encoder) (← settlement.encode client.encoder)

def preflightCreatePartnerRoundV2 (params : Mutable CreatePartnerRoundV2Params) :
    Simulation PreflightResult :=
  preflight .create_partner_round_v2 do
    let operator ← local? (client.addressOr params.atCall.operator "operator")
    simulateCall .create_partner_round_v2 do
      let (round, policy) ← partnerV2RoundArgs params.atBuild operator
      return .createPartnerRoundV2 (← round.encode client.encoder) (← policy.encode client.encoder)

def preflightCreateRoundV3 (params : Mutable CreateRoundV3Params) : Simulation PreflightResult :=
  preflight .create_round_v3 do
    let operator ← local? (client.addressOr params.atCall.operator "operator")
    simulateCall .create_round_v3 do
      let (round, partner, reveal) ← v3RoundArgs params.atBuild operator
      return .createRoundV3 (← round.encode client.encoder)
        ⟨← partner.encode client.encoder, reveal⟩

/-- The round as a preflight of the first generation reads it. -/
def roundBigInt (id : Numeric) : Except ClientError UInt64 := do
  encoded (client.encoder.u64 (← toBigInt id))

def preflightCommit (params : Mutable CommitParams) : Simulation PreflightResult :=
  preflight .commit do
    let bidder ← local? (client.addressOr params.atCall.bidder "bidder")
    let params := params.atBuild
    simulateCall .commit do
      return .commit (← client.roundBigInt params.roundId) bidder
        (← encoded (client.encoder.bytesN 32 params.sealedBid.commitment))
        params.sealedBid.ciphertext (← encoded (client.encoder.i128 params.escrow))
        params.sealedBid.auditorBlob

def preflightCommitV2 (params : Mutable CommitV2Params) : Simulation PreflightResult :=
  preflight .commit_v2 do
    let version := params.atCall.sealedPayload.version
    local? (configErrorIf (version ≠ 1)
      s!"unsupported sealed payload version {client.engine.numberToString version}")
    let bidder ← local? (client.addressOr params.atCall.bidder "bidder")
    let params := params.atBuild
    simulateCall .commit_v2 do
      return .commitV2 (← client.roundId params.roundId) bidder
        (← encoded (client.encoder.bytesN 32 params.sealedPayload.commitment))
        params.sealedPayload.ciphertext (← encoded (client.encoder.i128 params.escrow))
        params.sealedPayload.auditorBlob

def preflightOpenReveal (roundId : Numeric) (drandSignature : Bytes) :
    Simulation PreflightResult :=
  preflight .open_reveal <| simulateCall .open_reveal do
    return .openReveal (← client.roundBigInt roundId)
      (← encoded (client.encoder.bytesN 96 drandSignature))

def preflightOpenRevealV2 (roundId : Numeric) (drandSignature : Bytes) :
    Simulation PreflightResult :=
  preflight .open_reveal_v2 <| simulateCall .open_reveal_v2 do
    return .openRevealV2 (← client.roundId roundId)
      (← encoded (client.encoder.bytesN 96 drandSignature))

def preflightReveal (params : RevealParams) : Simulation PreflightResult :=
  preflight .reveal <| simulateCall .reveal do
    return .reveal (← client.roundBigInt params.roundId) params.bidder
      (← encoded (client.encoder.i128 params.value))
      (← encoded (client.encoder.bytesN 32 params.nonce))

def preflightRevealV2 (params : RevealV2Params) : Simulation PreflightResult :=
  preflight .reveal_v2 <| simulateCall .reveal_v2 do
    return .revealV2 (← client.roundId params.roundId) params.bidder (← envelopeArg params.envelope)

/-- The preflights of the first generation whose only argument is the round. -/
def preflightRound (operation : PreflightOperation) (call : UInt64 → Call) (roundId : Numeric) :
    Simulation PreflightResult :=
  preflight operation <| simulateCall operation do return call (← client.roundBigInt roundId)

def preflightClear (roundId : Numeric) := client.preflightRound .clear .clear roundId
def preflightSettle (roundId : Numeric) := client.preflightRound .settle .settle roundId
def preflightVoid (roundId : Numeric) := client.preflightRound .void .void roundId

/-- Those of the second generation. -/
def preflightRoundV2 (operation : PreflightOperation) (call : UInt64 → Call) (roundId : Numeric) :
    Simulation PreflightResult :=
  preflight operation <| simulateCall operation do return call (← client.roundId roundId)

def preflightClearV2 (roundId : Numeric) := client.preflightRoundV2 .clear_v2 .clearV2 roundId
def preflightSettleV2 (roundId : Numeric) := client.preflightRoundV2 .settle_v2 .settleV2 roundId
def preflightVoidV2 (roundId : Numeric) := client.preflightRoundV2 .void_v2 .voidV2 roundId

end SubRosaClient

/-! ## The calls they build -/

/-- The call a method builds when the network is the right one; a method that rejects builds
none. -/
def builtCall {α : Type} : Method α → ClientState → Option Call
  | .done _, _ => none
  | .sync f k, s => builtCall (k s) (f s)
  | .await .validateContractNetwork k, s => builtCall (k (.ok ())) s
  | .await (.submit call) _, _ => some call
  | .await _ _, _ => none

/-- The call a preflight builds. -/
def simulatedCall {α : Type} : Simulation α → ClientState → Option Call
  | .done _, _ => none
  | .sync f k, s => simulatedCall (k s) (f s)
  | .await .validateContractNetwork k, s => simulatedCall (k (.ok ())) s
  | .await (.simulate _ call) _, _ => some call

theorem builtCall_done_bind {α β : Type} (x : Except ClientError α) (f : α → Method β)
    (s : ClientState) :
    builtCall (Coroutine.done x >>= f) s = x.toOption.bind fun a => builtCall (f a) s := by
  cases x <;> rfl

theorem builtCall_sendUnwrap (build : Except ClientError Call) (s : ClientState) :
    builtCall (sendUnwrap build) s = build.toOption := by
  obtain ⟨validated⟩ := s
  cases validated <;> cases build <;> rfl

theorem simulatedCall_local_bind {α β : Type} (x : Except ClientError α) (f : α → Simulation β)
    (s : ClientState) :
    simulatedCall (local? x >>= f) s = x.toOption.bind fun a => simulatedCall (f a) s := by
  cases x <;> rfl

theorem simulatedCall_simulateCall (operation : PreflightOperation)
    (build : Except ClientError Call) (s : ClientState) :
    simulatedCall (simulateCall operation build) s = build.toOption := by
  obtain ⟨validated⟩ := s
  cases validated <;> cases build <;> rfl

/-- A preflight builds what its transaction builds. -/
theorem simulatedCall_preflight (operation : PreflightOperation)
    (buildTx : Simulation PreflightResult) (s : ClientState) :
    simulatedCall (preflight operation buildTx) s = simulatedCall buildTx s := by
  unfold preflight
  induction buildTx generalizing s with
  | done r =>
    rcases r with ((e | e | _ | _ | _) | _) | result <;> rfl
  | sync f k ih => exact ih s (f s)
  | await q k ih =>
    cases q with
    | validateContractNetwork => exact ih (.ok ()) s
    | simulate operation call => rfl

end SubRosa.Sdk
