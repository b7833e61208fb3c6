import SubRosa.Contract.Storage
import SubRosa.Keeper.Errors
import SubRosa.Library.Double
import SubRosa.Library.JsonFields
import SubRosa.Sdk.Receipts

/-!
# The receipts a client exports

`exportReceipt` and `exportReceiptV2` of `client.ts`. The reads of one export
are answered from one state of the contract, and the pages of the bidder index
as one list.
-/

namespace SubRosa

def Status.tag : Status → String
  | Open => "Open"
  | Revealing => "Revealing"
  | Cleared => "Cleared"
  | Settled => "Settled"
  | Voided => "Voided"

def ClearingRule.tag : ClearingRule → String
  | HighestBid => "HighestBid"
  | LowestBid => "LowestBid"

def RoundMode.tag : RoundMode → String
  | Auction => "Auction"
  | ReceiptOnly => "ReceiptOnly"

namespace Sdk

open JavaScript MachineInt

/-- The texts of addresses: the first letter tells an account from a contract. -/
structure Strkey where
  encode : Address → String
  injective : Function.Injective encode
  account : ∀ key, (encode (.account key)).toList.head? = some 'G'
  contract : ∀ id, (encode (.contract id)).toList.head? = some 'C'

/-- What a receipt says of the client that exports it. The constructor of the client has normalized
the contract id. -/
structure Exporter where
  strkey : Strkey
  networkPassphrase : String
  contractId : String
  contract : contractId.toList.head? = some 'C'
  exportedAt : String

/-- `result.unwrap()`. -/
def unwrapResult {α : Type} (found : Option α) (e : Error) : Except Thrown α :=
  match found with
  | some a => .ok a
  | none => .error (.error e.name)

/-! ## Values of a receipt -/

/-- `x.toString()` of an unsigned integer. -/
def u64Json (n : UInt64) : Json := .str (toString n.toNat)

def i128Json (x : I128) : Json := .str (toString x.toInt)

def hexJson (bytes : Bytes) : Json := .str (toHex bytes)

/-- `x ?? null`. -/
def orNull : Option Json → Json
  | some v => v
  | none => .null

/-- `Number(n)`. -/
def numberJson (n : UInt64) : Json := .num (Number.ofExact n.toNat)

def u32Json (n : UInt32) : Json := .num (.finite n.toNat)

/-- A seal that can still be read. -/
def readSeal (env : Env) (entry : Option SealEntry) : Option Seal :=
  entry.bind fun e => if e.readable env then some e.payload else none

/-- The reads of the contract return that seal. What they extend a simulated call does not keep. -/
theorem getSeal_shows (s : Store) (env : Env) (id : UInt64) (b : Address) (d : UInt64) :
    (s.getSeal env id b d).map Prod.fst = readSeal env (s.sealed id b) ∧
      (s.getSealV2 env id b d).map Prod.fst = readSeal env (s.sealedV2 id b) := by
  unfold Store.getSeal Store.getSealV2 readSeal
  constructor
  · cases s.sealed id b with
    | none => rfl
    | some e => by_cases h : e.readable env <;> simp [h]
  · cases s.sealedV2 id b with
    | none => rfl
    | some e => by_cases h : e.readable env <;> simp [h]

def evidenceJson (found : Option Seal) : Json :=
  .obj [("ciphertext", orNull (found.map fun s => hexJson s.ciphertext)),
    ("auditorBlob", orNull (found.map fun s => hexJson s.auditorBlob))]

/-! ## Entries -/

def bidJson (state : BidState) (found : Option Seal) : Json :=
  .obj [("commitment", hexJson state.commitment.val), ("escrow", i128Json state.escrow),
    ("revealedValue", orNull (state.revealedValue.map i128Json)),
    ("nonce", orNull (state.revealedNonce.map fun n => hexJson n.val)), ("hashValid", .null),
    ("valid", .bool state.valid), ("settled", .bool state.settled),
    ("evidence", evidenceJson found)]

def submissionJson (state : SubmissionStateV2) (found : Option Seal) : Json :=
  .obj [("commitment", hexJson state.commitment.val), ("escrow", i128Json state.escrow),
    ("revealedEnvelope", orNull (state.revealedEnvelope.map hexJson)),
    ("revealedAmount", orNull (state.revealedAmount.map i128Json)),
    ("valid", .bool state.valid), ("settled", .bool state.settled),
    ("evidence", evidenceJson found)]

section

variable (exporter : Exporter) (host : Host) (env : Env) (store : Store) (roundId : UInt64)

def addressJson (b : Address) : Json := .str (exporter.strkey.encode b)

/-- The loop over the bidders: the entry of each under its name. -/
def exportEntries (read : Address → Except Thrown Json) (bidders : List Address) :
    Except Thrown (List (String × Json)) :=
  bidders.foldlM (fun entries bidder => do
    return setField entries (exporter.strkey.encode bidder) (← read bidder)) []

def exportBid (bidder : Address) : Except Thrown Json := do
  let state ← unwrapResult (store.state roundId bidder) .BidNotFound
  return bidJson state (readSeal env (store.sealed roundId bidder))

def exportSubmission (bidder : Address) : Except Thrown Json := do
  let state ← unwrapResult (store.submissionV2 roundId bidder) .BidNotFound
  return submissionJson state (readSeal env (store.sealedV2 roundId bidder))

/-! ## Receipts -/

def receiptJson (round : Round) (bids : List (String × Json)) : Json :=
  .obj [("version", .num 1), ("network", .str exporter.networkPassphrase),
    ("networkFingerprint", .str (networkFingerprint host.sha256 exporter.networkPassphrase)),
    ("contractId", .str exporter.contractId), ("exportedAt", .str exporter.exportedAt),
    ("roundId", u64Json roundId), ("itemRef", hexJson round.itemRef.val),
    ("revealRound", numberJson round.revealRound), ("clearingRule", .str round.clearingRule.tag),
    ("commitDeadline", u64Json round.commitDeadline),
    ("revealDeadline", u64Json round.revealDeadline),
    ("operator", addressJson exporter round.operator),
    ("auditorPubkey", hexJson round.auditorPubkey),
    ("bidders", .arr (round.bidders.map (addressJson exporter))), ("bids", .obj bids),
    ("winner", orNull (round.winner.map (addressJson exporter))),
    ("winningValue", i128Json round.winningBid), ("status", .str round.status.tag)]

def exportReceipt : Except Thrown Json := do
  let round ← unwrapResult (store.round roundId) .RoundNotFound
  let _ ← unwrapResult store.config .NotInitialized
  let bids ← exportEntries exporter (exportBid env store roundId) round.bidders
  return receiptJson exporter host roundId round bids

def revealPolicyJson (operator : Address) : RevealPolicy → Json
  | .Timed => .obj [("type", .str "timed")]
  | .OwnerTriggered fallbackAt =>
    .obj [("type", .str "owner-triggered"), ("controller", addressJson exporter operator),
      ("fallbackAt", u64Json fallbackAt)]

/-- The fields that only a third-version receipt has. -/
def openingFields (operator : Address) : Option RevealStateV3 → List (String × Json)
  | some state =>
    [("revealPolicy", revealPolicyJson exporter operator state.policy),
      ("openedAt", orNull (state.openedAt.map u64Json))]
  | none => []

def policyJson : Option RoundPolicyV2 → Json
  | some policy =>
    .obj [("enforced", .bool true), ("fixedEscrow", i128Json policy.fixedEscrow),
      ("participation",
        .str (if policy.eligibleParticipants.length = 0 then "Open" else "Allowlist")),
      ("eligibleParticipants", .arr (policy.eligibleParticipants.map (addressJson exporter)))]
  | none =>
    .obj [("enforced", .bool false), ("fixedEscrow", .null), ("participation", .str "Open"),
      ("eligibleParticipants", .arr [])]

def receiptV2Json (round : RoundV2) (config : GlobalConfig) (policy : Option RoundPolicyV2)
    (revealState : Option RevealStateV3) (submissions : List (String × Json)) : Json :=
  .obj ([("version", u32Json round.protocolVersion),
    ("protocolVersion", u32Json round.protocolVersion)] ++
    openingFields exporter round.operator revealState ++
    [("network", .str exporter.networkPassphrase),
    ("networkFingerprint", .str (networkFingerprint host.sha256 exporter.networkPassphrase)),
    ("contractId", .str exporter.contractId), ("exportedAt", .str exporter.exportedAt),
    ("roundId", u64Json roundId), ("itemRef", hexJson round.itemRef.val),
    ("schemaRef", hexJson round.schemaRef.val), ("mode", .str round.mode.tag),
    ("paymentAsset", orNull (round.paymentAsset.map (addressJson exporter))),
    ("lotAsset", orNull (round.lotAsset.map (addressJson exporter))),
    ("lotAmount", i128Json round.lotAmount), ("revealRound", numberJson round.revealRound),
    ("drandGenesis", u64Json config.drandGenesis), ("drandPeriod", u64Json config.drandPeriod),
    ("clearingRule", .str round.clearingRule.tag),
    ("commitDeadline", u64Json round.commitDeadline),
    ("revealDeadline", u64Json round.revealDeadline),
    ("operator", addressJson exporter round.operator),
    ("auditorPubkey", hexJson round.auditorPubkey),
    ("maxParticipants", u32Json round.maxParticipants), ("policy", policyJson exporter policy),
    ("bidders", .arr (round.bidders.map (addressJson exporter))), ("submissions", .obj submissions),
    ("winner", orNull (round.winner.map (addressJson exporter))),
    ("winningAmount", i128Json round.winningBid), ("status", .str round.status.tag)])

def readRevealState (round : RoundV2) : Except Thrown (Option RevealStateV3) :=
  if round.protocolVersion = revealPolicyVersion then
    some <$> unwrapResult (store.revealV3 roundId) .RevealPolicyMissing
  else .ok none

def exportReceiptV2 : Except Thrown Json := do
  let round ← unwrapResult (store.roundV2 roundId) .RoundNotFound
  let config ← unwrapResult store.config .NotInitialized
  let policy := store.policyV2 roundId
  throwIf (round.protocolVersion ≠ coreV2Version ∧ round.protocolVersion ≠ revealPolicyVersion)
    s!"unsupported round protocol {round.protocolVersion}"
  throwIf (round.protocolVersion = revealPolicyVersion ∧ policy = none)
    "v3 round requires its partner policy for receipt export"
  let revealState ← readRevealState store roundId round
  let submissions ← exportEntries exporter (exportSubmission env store roundId) round.bidders
  return receiptV2Json exporter host roundId round config policy revealState submissions

end

end Sdk

end SubRosa
