import SubRosa.Contract.Calls
import SubRosa.Library.Coroutine
import SubRosa.Sdk.Envelope

/-!
# The writing methods of the client

`client.ts`: how the parameters of a method become the arguments of an entry
point, and what a method asks of the network. Simulation, signature and
submission of one transaction are one request; what goes wrong in them is in
its answer. An address is given as one. The encoder of the bindings is not part
of the repository: it is a parameter of the client, of which nothing is known
but that a value of the type of its argument is encoded as itself.
-/

namespace SubRosa.Sdk

open JavaScript MachineInt

/-- `number | bigint`. -/
inductive Numeric
  | number (n : Number)
  | bigint (n : Int)

inductive ClientError
  | thrown (e : Thrown)
  /-- `SubRosaClientConfigError`. -/
  | config (message : String)
  | encoding
  /-- What the network, the simulation or the submission reports. -/
  | network
  /-- An adapter that supports receipt-only rounds refuses. -/
  | receiptOnlyRequired (message : String)

/-! ## Arguments -/

/-- `JSON.stringify` of a number. -/
def numberText (engine : Engine) : Number → String
  | .finite q => engine.numberToString (.finite q)
  | .infinite _ => "null"

def toBigInt : Numeric → Except ClientError Int
  | .bigint n => .ok n
  | .number n =>
    if n.isInteger then .ok n.toInt else .error (.thrown (.native .rangeError))

/-- A text is not given to these methods. -/
def normalizeRoundId (engine : Engine) : Numeric → Except ClientError Int
  | .bigint n => .ok n
  | .number n =>
    if n.isInteger then .ok n.toInt
    else .error (.thrown (.error s!"roundId must be an integer, got {numberText engine n}"))

/-- The encoder of the generated bindings. What becomes of an integer out of range or of bytes of
another length is left open: it may be refused, reduced or padded. -/
structure Encoder where
  u32 : Int → Option UInt32
  u64 : Int → Option UInt64
  i128 : Int → Option I128
  bytesN : (n : Nat) → Bytes → Option (BytesN n)
  u32_toNat : ∀ n : UInt32, u32 n.toNat = some n
  u64_toNat : ∀ n : UInt64, u64 n.toNat = some n
  i128_toInt : ∀ n : I128, i128 n.toInt = some n
  bytesN_val : ∀ {n : Nat} (b : BytesN n), bytesN n b.val = some b

/-- An argument that does not encode is an error. -/
def encoded {α : Type} : Option α → Except ClientError α
  | some a => .ok a
  | none => .error .encoding

@[simp] theorem encoded_some {α : Type} (a : α) : encoded (some a) = .ok a := rfl

theorem encoded_eq_ok {α : Type} {o : Option α} {a : α} : encoded o = .ok a ↔ o = some a := by
  cases o <;> simp [encoded]

@[simp] theorem encoded_toOption {α : Type} (o : Option α) : (encoded o).toOption = o := by
  cases o <;> rfl

namespace Encoder

/-- An encoder that refuses what does not have the type of the argument. -/
def strict : Encoder where
  u32 n := if 0 ≤ n ∧ n < 2 ^ 32 then some (UInt32.ofNat n.toNat) else none
  u64 n := if 0 ≤ n ∧ n < 2 ^ 64 then some (UInt64.ofNat n.toNat) else none
  i128 := I128.ofInt?
  bytesN n b := if h : b.length = n then some ⟨b, h⟩ else none
  u32_toNat n := by
    have hlt := n.toNat_lt
    rw [if_pos ⟨by omega, by omega⟩, Int.toNat_natCast, UInt32.ofNat_toNat]
  u64_toNat n := by
    have hlt := n.toNat_lt
    rw [if_pos ⟨by omega, by omega⟩, Int.toNat_natCast, UInt64.ofNat_toNat]
  i128_toInt n := I128.ofInt?_eq_some.mpr rfl
  bytesN_val b := dif_pos b.property

variable (encoder : Encoder)

theorem u64_map {α : Type} (n : UInt64) (f : UInt64 → α) :
    (encoder.u64 n.toNat).map f = some (f n) := by
  rw [encoder.u64_toNat, Option.map_some]

/-- Integers in range encode. -/
theorem u64_isSome {n : Int} (h : 0 ≤ n ∧ n < 2 ^ 64) : (encoder.u64 n).isSome := by
  obtain ⟨word, rfl⟩ : ∃ word : UInt64, n = word.toNat :=
    ⟨UInt64.ofNat n.toNat, by rw [UInt64.toNat_ofNat']; omega⟩
  rw [encoder.u64_toNat]
  rfl

theorem i128_isSome {n : Int} (h : -2 ^ 127 ≤ n ∧ n < 2 ^ 127) : (encoder.i128 n).isSome := by
  rw [show n = (I128.mk n h.1 h.2).toInt from rfl, encoder.i128_toInt]
  rfl

theorem bytesN_of_length {n : Nat} {b : Bytes} (h : b.length = n) :
    encoder.bytesN n b = some ⟨b, h⟩ := encoder.bytesN_val ⟨b, h⟩

end Encoder

/-! ## Encrypted blobs -/

inductive BlobContentType
  | ciphertext
  | auditorBlob

/-- `HUMAN_LABELS`. -/
def BlobContentType.label : BlobContentType → String
  | ciphertext => "ciphertext"
  | auditorBlob => "auditor blob"

/-- `MAX_CIPHERTEXT_BYTES`, `MAX_AUDITOR_BLOB_BYTES`. -/
def BlobContentType.maxBytes : BlobContentType → Nat
  | ciphertext => 4096
  | auditorBlob => 1024

structure BlobValidationIssue where
  code : String
  message : String

/-- The issues of a blob that is given as bytes. -/
def validateEncryptedBlob (blob : Bytes) (contentType : BlobContentType) :
    List BlobValidationIssue :=
  if blob.length = 0 then [⟨"empty_blob", s!"{contentType.label} must not be empty"⟩]
  else if contentType.maxBytes < blob.length then
    [⟨"blob_too_large",
      s!"{contentType.label} is {blob.length} bytes, " ++
        s!"exceeding the maximum of {contentType.maxBytes} bytes"⟩]
  else []

def requireValidBlob (blob : Bytes) (contentType : BlobContentType) : Except ClientError Unit :=
  match validateEncryptedBlob blob contentType with
  | [] => .ok ()
  | issues => .error (.config ("; ".intercalate (issues.map BlobValidationIssue.message)))

/-! ## Parameters -/

/-- An object of the caller, who may change it while the method waits: as it is at the call, and as
it is when the arguments are built. -/
structure Mutable (P : Type) where
  atCall : P
  atBuild : P

/-- An object that is left alone. -/
def Mutable.fixed {P : Type} (params : P) : Mutable P := ⟨params, params⟩

structure CreateRoundParams where
  itemRef : Bytes
  revealRound : Numeric
  commitDeadline : Numeric
  revealDeadline : Numeric
  auditorPubkey : Bytes
  clearingRule : Option ClearingRule
  operator : Option Address

structure SealedBid where
  commitment : Bytes
  ciphertext : Bytes
  auditorBlob : Bytes

structure CommitParams where
  roundId : Numeric
  sealedBid : SealedBid
  escrow : Int
  bidder : Option Address

structure RevealParams where
  roundId : Numeric
  bidder : Address
  value : Int
  nonce : Bytes

structure CreateRoundV2Params where
  itemRef : Bytes
  schemaRef : Bytes
  mode : RoundMode
  paymentAsset : Option Address
  lotAsset : Option Address
  lotAmount : Option Int
  revealRound : Numeric
  commitDeadline : Numeric
  revealDeadline : Numeric
  auditorPubkey : Bytes
  maxParticipants : Option Number
  clearingRule : Option ClearingRule
  operator : Option Address

structure CreatePartnerRoundV2Params extends CreateRoundV2Params where
  fixedEscrow : Int
  eligibleParticipants : Option (List Address)

inductive RevealPolicyParam
  | timed
  | ownerTriggered (fallbackAt : Numeric)

structure CreateRoundV3Params extends CreatePartnerRoundV2Params where
  revealPolicy : RevealPolicyParam

structure SealedPayload extends SealedBid where
  version : Number

structure CommitV2Params where
  roundId : Numeric
  sealedPayload : SealedPayload
  escrow : Int
  bidder : Option Address

structure RevealV2Params where
  roundId : Numeric
  bidder : Address
  envelope : PayloadEnvelope

/-! ## Arguments of the structured creations -/

/-- `MAX_V2_PARTICIPANTS`. -/
def maxV2ParticipantsNumber : Number := 25

structure Settlement where
  mode : RoundMode
  paymentAsset : Option Address
  lotAsset : Option Address
  lotAmount : Int

def Settlement.encode (encoder : Encoder) (settlement : Settlement) :
    Except ClientError SettlementConfig := do
  return {
    mode := settlement.mode
    paymentAsset := settlement.paymentAsset
    lotAsset := settlement.lotAsset
    lotAmount := ← encoded (encoder.i128 settlement.lotAmount) }

/-- What `v2RoundArgs` returns besides the settlement. -/
structure V2RoundArgs where
  operator : Address
  itemRef : Bytes
  schemaRef : Bytes
  revealRound : Int
  clearingRule : ClearingRule
  commitDeadline : Int
  revealDeadline : Int
  auditorPubkey : Bytes
  maxParticipants : Number

def V2RoundArgs.encode (encoder : Encoder) (args : V2RoundArgs) :
    Except ClientError RoundArgsV2 := do
  return {
    operator := args.operator
    itemRef := ← encoded (encoder.bytesN 32 args.itemRef)
    schemaRef := ← encoded (encoder.bytesN 32 args.schemaRef)
    revealRound := ← encoded (encoder.u64 args.revealRound)
    clearingRule := args.clearingRule
    commitDeadline := ← encoded (encoder.u64 args.commitDeadline)
    revealDeadline := ← encoded (encoder.u64 args.revealDeadline)
    auditorPubkey := args.auditorPubkey
    maxParticipants := ← encoded (encoder.u32 args.maxParticipants.toInt) }

/-- `throw new SubRosaClientConfigError(message)` when `c` holds. -/
def configErrorIf (c : Prop) [Decidable c] (message : String) : Except ClientError Unit :=
  if c then .error (.config message) else .ok ()

def v2RoundArgs (params : CreateRoundV2Params) (operator : Address) :
    Except ClientError (V2RoundArgs × Settlement) := do
  let maxParticipants := params.maxParticipants.getD maxV2ParticipantsNumber
  configErrorIf (!maxParticipants.isInteger ∨ maxParticipants.lt 1 ∨
      maxV2ParticipantsNumber.lt maxParticipants)
    "maxParticipants must be an integer between 1 and 25"
  let lotAmount := params.lotAmount.getD 0
  configErrorIf (params.mode = .Auction ∧
      (params.paymentAsset = none ∨ params.lotAsset = none ∨ lotAmount ≤ 0))
    "Auction rounds require paymentAsset, lotAsset, and a positive lotAmount"
  configErrorIf (params.mode = .ReceiptOnly ∧
      (params.paymentAsset ≠ none ∨ params.lotAsset ≠ none ∨ lotAmount ≠ 0))
    "ReceiptOnly rounds cannot configure payment or lot settlement"
  let revealRound ← toBigInt params.revealRound
  let commitDeadline ← toBigInt params.commitDeadline
  let revealDeadline ← toBigInt params.revealDeadline
  return ({
    operator
    itemRef := params.itemRef
    schemaRef := params.schemaRef
    revealRound
    clearingRule := params.clearingRule.getD .HighestBid
    commitDeadline
    revealDeadline
    auditorPubkey := params.auditorPubkey
    maxParticipants }, {
    mode := params.mode
    paymentAsset := params.paymentAsset
    lotAsset := params.lotAsset
    lotAmount })

structure PartnerPolicy where
  settlement : Settlement
  fixedEscrow : Int
  eligibleParticipants : List Address

def PartnerPolicy.encode (encoder : Encoder) (policy : PartnerPolicy) :
    Except ClientError RoundPolicyV2 := do
  return {
    settlement := ← policy.settlement.encode encoder
    fixedEscrow := ← encoded (encoder.i128 policy.fixedEscrow)
    eligibleParticipants := policy.eligibleParticipants }

def partnerV2RoundArgs (params : CreatePartnerRoundV2Params) (operator : Address) :
    Except ClientError (V2RoundArgs × PartnerPolicy) := do
  let (round, settlement) ← v2RoundArgs params.toCreateRoundV2Params operator
  let eligibleParticipants := params.eligibleParticipants.getD []
  configErrorIf (params.mode = .Auction ∧ params.fixedEscrow ≤ 0)
    "Auction partner rounds require a positive fixedEscrow"
  configErrorIf (params.mode = .ReceiptOnly ∧ params.fixedEscrow ≠ 0)
    "ReceiptOnly partner rounds require fixedEscrow to be zero"
  configErrorIf (round.maxParticipants.lt (.finite eligibleParticipants.length))
    "eligibleParticipants cannot exceed maxParticipants"
  configErrorIf (¬ eligibleParticipants.Nodup)
    "eligibleParticipants cannot contain duplicates"
  return (round, ⟨settlement, params.fixedEscrow, eligibleParticipants⟩)

def Numeric.isUnsafe : Numeric → Bool
  | .number n => !n.isSafeInteger
  | .bigint _ => false

def revealPolicyArg (revealDeadline : Int) : RevealPolicyParam → Except ClientError RevealPolicy
  | .timed => .ok .Timed
  | .ownerTriggered value => do
    configErrorIf value.isUnsafe "fallbackAt must be a safe integer Unix timestamp"
    let fallback ← toBigInt value
    configErrorIf (fallback ≤ 0 ∨ 2 ^ 64 - 1 < fallback ∨ revealDeadline - fallback < 300)
      "fallbackAt must leave at least 300 seconds before revealDeadline"
    -- in the range of `u64`, which encodes as itself
    return .OwnerTriggered (UInt64.ofNat fallback.toNat)

def v3RoundArgs (params : CreateRoundV3Params) (operator : Address) :
    Except ClientError (V2RoundArgs × PartnerPolicy × RevealPolicy) := do
  let (round, partner) ← partnerV2RoundArgs params.toCreatePartnerRoundV2Params operator
  let reveal ← revealPolicyArg round.revealDeadline params.revealPolicy
  return (round, partner, reveal)

/-! ## Requests -/

inductive ClientRequest
  | validateContractNetwork
  /-- A read, or the simulation of a preflight. -/
  | simulate
  | getRoundV2 (roundId : UInt64)
  | submit (call : Call)

def ClientRequest.Answer : ClientRequest → Type
  | validateContractNetwork => Unit
  | simulate => Unit
  | getRoundV2 _ => RoundV2
  | submit _ => Value

/-- What a client keeps between two calls. -/
structure ClientState where
  networkValidated : Bool

/-- An asynchronous method of the client. -/
abbrev Method := Coroutine ClientState ClientRequest ClientRequest.Answer ClientError

def ask (q : ClientRequest) : Method q.Answer := Coroutine.request q

/-- What a client is made with. -/
structure SubRosaClient where
  engine : Engine
  encoder : Encoder
  source : Option Address

namespace SubRosaClient

variable (client : SubRosaClient)

def requireSource (role : String) : Except ClientError Address :=
  match client.source with
  | some source => .ok source
  | none =>
    .error (.config s!"a secretKey (or publicKey) is required to use it as the {role}")

/-- `address ?? this.#requireSource(role)`. -/
def addressOr (address : Option Address) (role : String) : Except ClientError Address :=
  match address with
  | some a => .ok a
  | none => client.requireSource role

def roundId (id : Numeric) : Except ClientError UInt64 := do
  encoded (client.encoder.u64 (← normalizeRoundId client.engine id))

end SubRosaClient

/-- The network is validated once. -/
def validateNetwork : Method Unit := do
  let validated ← Coroutine.inspect ClientState.networkValidated
  if validated then pure ()
  else do
    ask .validateContractNetwork
    Coroutine.change fun _ => ⟨true⟩

/-- `#sendUnwrap` of a `#validatedContractCall`. -/
def sendUnwrap (build : Except ClientError Call) : Method Value := do
  validateNetwork
  let call ← .done build
  ask (.submit call)

/-! ## Methods -/

namespace SubRosaClient

variable (client : SubRosaClient)

def createRound (params : Mutable CreateRoundParams) : Method Value := do
  let operator ← .done (client.addressOr params.atCall.operator "operator")
  let clearingRule := params.atCall.clearingRule.getD .HighestBid
  let params := params.atBuild
  sendUnwrap do
    let revealRound ← toBigInt params.revealRound
    let commitDeadline ← toBigInt params.commitDeadline
    let revealDeadline ← toBigInt params.revealDeadline
    return .createRound {
      operator
      itemRef := ← encoded (client.encoder.bytesN 32 params.itemRef)
      revealRound := ← encoded (client.encoder.u64 revealRound)
      clearingRule
      commitDeadline := ← encoded (client.encoder.u64 commitDeadline)
      revealDeadline := ← encoded (client.encoder.u64 revealDeadline)
      auditorPubkey := params.auditorPubkey }

def createRoundV2 (params : Mutable CreateRoundV2Params) : Method Value := do
  let operator ← .done (client.addressOr params.atCall.operator "operator")
  sendUnwrap do
    let (round, settlement) ← v2RoundArgs params.atBuild operator
    return .createRoundV2 (← round.encode client.encoder) (← settlement.encode client.encoder)

def createPartnerRoundV2 (params : Mutable CreatePartnerRoundV2Params) : Method Value := do
  let operator ← .done (client.addressOr params.atCall.operator "operator")
  sendUnwrap do
    let (round, policy) ← partnerV2RoundArgs params.atBuild operator
    return .createPartnerRoundV2 (← round.encode client.encoder) (← policy.encode client.encoder)

def createRoundV3 (params : Mutable CreateRoundV3Params) : Method Value := do
  let operator ← .done (client.addressOr params.atCall.operator "operator")
  sendUnwrap do
    let (round, partner, reveal) ← v3RoundArgs params.atBuild operator
    return .createRoundV3 (← round.encode client.encoder) ⟨← partner.encode client.encoder, reveal⟩

/-- The blobs of a seal are validated before anything is sent. -/
def requireValidBlobs (sealedBid : SealedBid) : Except ClientError Unit := do
  requireValidBlob sealedBid.ciphertext .ciphertext
  requireValidBlob sealedBid.auditorBlob .auditorBlob

def commit (params : Mutable CommitParams) : Method Value := do
  .done (requireValidBlobs params.atCall.sealedBid)
  let bidder ← .done (client.addressOr params.atCall.bidder "bidder")
  let params := params.atBuild
  sendUnwrap do
    return .commit (← client.roundId params.roundId) bidder
      (← encoded (client.encoder.bytesN 32 params.sealedBid.commitment))
      params.sealedBid.ciphertext (← encoded (client.encoder.i128 params.escrow))
      params.sealedBid.auditorBlob

def commitV2 (params : Mutable CommitV2Params) : Method Value := do
  let version := params.atCall.sealedPayload.version
  .done (configErrorIf (version ≠ 1)
    s!"unsupported sealed payload version {client.engine.numberToString version}")
  .done (requireValidBlobs params.atCall.sealedPayload.toSealedBid)
  let bidder ← .done (client.addressOr params.atCall.bidder "bidder")
  let params := params.atBuild
  sendUnwrap do
    return .commitV2 (← client.roundId params.roundId) bidder
      (← encoded (client.encoder.bytesN 32 params.sealedPayload.commitment))
      params.sealedPayload.ciphertext (← encoded (client.encoder.i128 params.escrow))
      params.sealedPayload.auditorBlob

/-- Partner-facing alias. -/
def submitV2 (params : Mutable CommitV2Params) : Method Value := client.commitV2 params

def openReveal (roundId : Numeric) (drandSignature : Bytes) : Method Value :=
  sendUnwrap do
    return .openReveal (← client.roundId roundId)
      (← encoded (client.encoder.bytesN 96 drandSignature))

def openRevealV2 (roundId : Numeric) (drandSignature : Bytes) : Method Value :=
  sendUnwrap do
    return .openRevealV2 (← client.roundId roundId)
      (← encoded (client.encoder.bytesN 96 drandSignature))

/-- All parameters are read when the arguments are built. -/
def reveal (params : RevealParams) : Method Value :=
  sendUnwrap do
    return .reveal (← client.roundId params.roundId) params.bidder
      (← encoded (client.encoder.i128 params.value))
      (← encoded (client.encoder.bytesN 32 params.nonce))

/-- `encodePayloadEnvelope` with its error as one of the client. -/
def envelopeArg (envelope : PayloadEnvelope) : Except ClientError Bytes :=
  (encodePayloadEnvelope envelope).mapError ClientError.thrown

def revealV2 (params : RevealV2Params) : Method Value :=
  sendUnwrap do
    return .revealV2 (← client.roundId params.roundId) params.bidder (← envelopeArg params.envelope)

/-- The methods whose only argument is the round. -/
def onRound (call : UInt64 → Call) (roundId : Numeric) : Method Value :=
  sendUnwrap do return call (← client.roundId roundId)

def clear (roundId : Numeric) : Method Value := client.onRound .clear roundId
def clearV2 (roundId : Numeric) : Method Value := client.onRound .clearV2 roundId
def settle (roundId : Numeric) : Method Value := client.onRound .settle roundId
def settleV2 (roundId : Numeric) : Method Value := client.onRound .settleV2 roundId
def void (roundId : Numeric) : Method Value := client.onRound .void roundId
def voidV2 (roundId : Numeric) : Method Value := client.onRound .voidV2 roundId

def getRoundV2 (roundId : Numeric) : Method RoundV2 := do
  validateNetwork
  let id ← .done (client.roundId roundId)
  ask (.getRoundV2 id)

/-- The reads and the preflights, which sign and submit nothing. -/
def simulation : Method Unit := do
  validateNetwork
  ask .simulate

end SubRosaClient

/-! ## What the arguments keep of the parameters -/

theorem Settlement.encode_mode {encoder : Encoder} {settlement : Settlement}
    {config : SettlementConfig} (h : settlement.encode encoder = .ok config) :
    config.mode = settlement.mode := by
  obtain ⟨lotAmount, -, h⟩ := bind_eq_ok.mp h
  cases h
  rfl

theorem v2RoundArgs_mode {params : CreateRoundV2Params} {operator : Address} {round : V2RoundArgs}
    {settlement : Settlement} (h : v2RoundArgs params operator = .ok (round, settlement)) :
    settlement.mode = params.mode := by
  obtain ⟨_, -, h⟩ := bind_eq_ok.mp h
  obtain ⟨_, -, h⟩ := bind_eq_ok.mp h
  obtain ⟨_, -, h⟩ := bind_eq_ok.mp h
  obtain ⟨revealRound, -, h⟩ := bind_eq_ok.mp h
  obtain ⟨commitDeadline, -, h⟩ := bind_eq_ok.mp h
  obtain ⟨revealDeadline, -, h⟩ := bind_eq_ok.mp h
  cases h
  rfl

theorem PartnerPolicy.encode_mode {encoder : Encoder} {policy : PartnerPolicy}
    {made : RoundPolicyV2} (h : policy.encode encoder = .ok made) :
    made.settlement.mode = policy.settlement.mode := by
  obtain ⟨settlement, hsettlement, h⟩ := bind_eq_ok.mp h
  obtain ⟨fixedEscrow, -, h⟩ := bind_eq_ok.mp h
  cases h
  exact Settlement.encode_mode hsettlement

theorem partnerV2RoundArgs_mode {params : CreatePartnerRoundV2Params} {operator : Address}
    {round : V2RoundArgs} {policy : PartnerPolicy}
    (h : partnerV2RoundArgs params operator = .ok (round, policy)) :
    policy.settlement.mode = params.mode := by
  obtain ⟨⟨round', settlement⟩, hargs, h⟩ := bind_eq_ok.mp h
  obtain ⟨_, -, h⟩ := bind_eq_ok.mp h
  obtain ⟨_, -, h⟩ := bind_eq_ok.mp h
  obtain ⟨_, -, h⟩ := bind_eq_ok.mp h
  obtain ⟨_, -, h⟩ := bind_eq_ok.mp h
  cases h
  exact v2RoundArgs_mode hargs

theorem v3RoundArgs_mode {params : CreateRoundV3Params} {operator : Address} {round : V2RoundArgs}
    {partner : PartnerPolicy} {reveal : RevealPolicy}
    (h : v3RoundArgs params operator = .ok (round, partner, reveal)) :
    partner.settlement.mode = params.mode := by
  obtain ⟨⟨round', partner'⟩, hargs, h⟩ := bind_eq_ok.mp h
  obtain ⟨reveal', -, h⟩ := bind_eq_ok.mp h
  cases h
  exact partnerV2RoundArgs_mode hargs

end SubRosa.Sdk
