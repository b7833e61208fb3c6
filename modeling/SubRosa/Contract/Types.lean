import SubRosa.Library.BigEndian

/-!
# Contract types

The records, enumerations and error codes of `types.rs`. Bytes are lists of
octets, `i128` amounts are bounded integers, `Vec<Address>` is a list. Both
record generations keep every field of the source.
-/

namespace SubRosa

open MachineInt

abbrev Bytes := List UInt8

/-- `BytesN<n>`. -/
abbrev BytesN (n : Nat) := {b : Bytes // b.length = n}

/-- The same byte `n` times. -/
def BytesN.fill (n : Nat) (b : UInt8) : BytesN n := ⟨List.replicate n b, List.length_replicate⟩

/-- A Stellar address: an account key or a contract id. -/
inductive Address
  | account (key : BitVec 256)
  | contract (id : BitVec 256)
  deriving DecidableEq, Repr

/-- Contract error codes. -/
inductive Error
  | NotInitialized
  | AlreadyInitialized
  | RoundNotFound
  | BidNotFound
  | CommitClosed
  | CommitNotClosed
  | CommitDeadlineAfterReveal
  | RevealNotOpen
  | RevealAlreadyOpen
  | RevealWindowClosed
  | RevealStillOpen
  | NotCleared
  | AlreadyCleared
  | AlreadySettled
  | RoundVoided
  | NotVoidable
  | WrongStatus
  | InvalidDrandSignature
  | HashMismatch
  | AlreadyRevealed
  | PayloadTooLarge
  | InvalidAmount
  | BidExceedsEscrow
  | DeadlineInPast
  | NoValidBids
  | RoundFull
  | InvalidLimit
  | UnsupportedVersion
  | MalformedPayload
  | EscrowNotAllowed
  | RoundDurationTooLong
  | ParticipantNotEligible
  | EscrowPolicyMismatch
  | InvalidRevealPolicy
  | RevealPolicyMissing
  deriving DecidableEq, Repr

/-- Round lifecycle. -/
inductive Status
  | Open
  | Revealing
  | Cleared
  | Settled
  | Voided
  deriving DecidableEq, Repr

inductive ClearingRule
  | HighestBid
  | LowestBid
  deriving DecidableEq, Repr

/-- Auction rounds escrow and settle funds; receipt-only rounds only record a
simultaneous reveal. -/
inductive RoundMode
  | Auction
  | ReceiptOnly
  deriving DecidableEq, Repr

structure SettlementConfig where
  mode : RoundMode
  paymentAsset : Option Address
  lotAsset : Option Address
  lotAmount : I128
  deriving DecidableEq

/-- Optional partner policy, stored apart from the round record. -/
structure RoundPolicyV2 where
  settlement : SettlementConfig
  fixedEscrow : I128
  eligibleParticipants : List Address
  deriving DecidableEq

/-- Who may open: anyone, or before the fallback second only the operator. -/
inductive RevealPolicy
  | Timed
  | OwnerTriggered (fallbackAt : UInt64)
  deriving DecidableEq

structure RevealStateV3 where
  policy : RevealPolicy
  openedAt : Option UInt64
  deriving DecidableEq

structure RoundPolicyV3 where
  partner : RoundPolicyV2
  reveal : RevealPolicy
  deriving DecidableEq

/-- Set once at deploy. -/
structure GlobalConfig where
  drandPubkey : BytesN 192
  g2NegGenerator : BytesN 192
  dst : Bytes
  drandGenesis : UInt64
  drandPeriod : UInt64
  usdc : Address
  deriving DecidableEq

/-- Per-round record of the first generation. -/
structure Round where
  operator : Address
  itemRef : BytesN 32
  revealRound : UInt64
  clearingRule : ClearingRule
  commitDeadline : UInt64
  revealDeadline : UInt64
  auditorPubkey : Bytes
  status : Status
  bidders : List Address
  winner : Option Address
  winningBid : I128
  deriving DecidableEq

/-- Versioned round record; protocol versions 2 and 3 share it. -/
structure RoundV2 where
  protocolVersion : UInt32
  schemaRef : BytesN 32
  mode : RoundMode
  operator : Address
  itemRef : BytesN 32
  paymentAsset : Option Address
  lotAsset : Option Address
  lotAmount : I128
  revealRound : UInt64
  clearingRule : ClearingRule
  commitDeadline : UInt64
  revealDeadline : UInt64
  auditorPubkey : Bytes
  maxParticipants : UInt32
  status : Status
  bidders : List Address
  winner : Option Address
  winningBid : I128
  deriving DecidableEq

/-- Per-bid durable state. -/
structure BidState where
  commitment : BytesN 32
  escrow : I128
  revealedValue : Option I128
  revealedNonce : Option (BytesN 32)
  valid : Bool
  settled : Bool
  deriving DecidableEq

/-- Durable submission state of versions 2 and 3. -/
structure SubmissionStateV2 where
  commitment : BytesN 32
  escrow : I128
  revealedEnvelope : Option Bytes
  revealedAmount : Option I128
  valid : Bool
  settled : Bool
  deriving DecidableEq

/-- Per-bid sealed payload, kept in temporary storage. -/
structure Seal where
  ciphertext : Bytes
  auditorBlob : Bytes
  deriving DecidableEq

/-! ## Limits -/

def maxCiphertext : Nat := 4096
def maxAuditorBlob : Nat := 2048
def maxAuditorPubkey : Nat := 1024
def maxBidders : Nat := 500
/-- Seconds after the reveal deadline before a round nobody opened can be voided. -/
def voidGrace : UInt64 := 3600
def maxV2Participants : UInt32 := 25
def maxRoundDurationSecs : UInt64 := 30 * 24 * 60 * 60
def coreV2Version : UInt32 := 2
def revealPolicyVersion : UInt32 := 3
def minRevealWindow : UInt64 := 300

end SubRosa
