import SubRosa.Contract.Types
import SubRosa.Library.Invocation
import SubRosa.Library.TokenLedger

/-!
# The host around the contract

What an entry point sees: the fixed host functions, the data of the one
transaction it runs in, the contract's storage and the token balances. Tokens
are honest balance maps. The transfers of an invocation are recorded in order,
so that what a call moved can be read off its result.
-/

namespace SubRosa

open MachineInt Invocation TokenLedger

abbrev Transfer := TokenLedger.Transfer Address Address
abbrev Balances := TokenLedger.Balances Address Address

/-- Host functions and constants of a deployment. `hashToG1` and
`pairingCheck` trap (`none`) on points or tags the host rejects. -/
structure Host where
  currentContract : Address
  sha256 : Bytes → BytesN 32
  hashToG1 : Bytes → Bytes → Option (BytesN 96)
  pairingCheck : List (BytesN 96) → List (BytesN 192) → Option Bool
  minTemporaryTtl : Nat

/-- One transaction: ledger time and sequence, the addresses that authorised
it, and which token transfers the token contracts and accounts accept. -/
structure Transaction where
  timestamp : UInt64
  sequence : Nat
  auths : Address → Bool
  accepts : Transfer → Bool

/-- `env`. -/
structure Env extends Host, Transaction

/-- A temporary entry and the last ledger at which it can be read. -/
structure SealEntry where
  payload : Seal
  liveUntil : Nat
  deriving DecidableEq

/-- Contract storage, one field for each `DataKey` constructor. -/
structure Store where
  config : Option GlobalConfig
  roundCounter : Option UInt64
  round : UInt64 → Option Round
  state : UInt64 → Address → Option BidState
  sealed : UInt64 → Address → Option SealEntry
  roundV2 : UInt64 → Option RoundV2
  submissionV2 : UInt64 → Address → Option SubmissionStateV2
  sealedV2 : UInt64 → Address → Option SealEntry
  policyV2 : UInt64 → Option RoundPolicyV2
  revealV3 : UInt64 → Option RevealStateV3

def Store.empty : Store where
  config := none
  roundCounter := none
  round := fun _ => none
  state := fun _ _ => none
  sealed := fun _ _ => none
  roundV2 := fun _ => none
  submissionV2 := fun _ _ => none
  sealedV2 := fun _ _ => none
  policyV2 := fun _ => none
  revealV3 := fun _ => none

/-- What persists between transactions. -/
structure World where
  store : Store
  balances : Balances

/-- The state of one invocation. -/
structure Frame extends World where
  transfers : List Transfer

abbrev Contract := Prog Env Frame Error

def Frame.withStore (f : Frame) (s : Store) : Frame := { f with store := s }

@[simp] theorem Frame.withStore_store (f : Frame) (s : Store) : (f.withStore s).store = s := rfl
@[simp] theorem Frame.withStore_balances (f : Frame) (s : Store) :
    (f.withStore s).balances = f.balances := rfl
@[simp] theorem Frame.withStore_transfers (f : Frame) (s : Store) :
    (f.withStore s).transfers = f.transfers := rfl
@[simp] theorem Frame.withStore_withStore (f : Frame) (s t : Store) :
    (f.withStore s).withStore t = f.withStore t := rfl

/-- The frame after token transfers `ts` that left balances `b`. -/
def Frame.paid (f : Frame) (b : Balances) (ts : List Transfer) : Frame :=
  { f with balances := b, transfers := f.transfers ++ ts }

@[simp] theorem Frame.paid_store (f : Frame) (b : Balances) (ts : List Transfer) :
    (f.paid b ts).store = f.store := rfl
@[simp] theorem Frame.paid_balances (f : Frame) (b : Balances) (ts : List Transfer) :
    (f.paid b ts).balances = b := rfl
@[simp] theorem Frame.paid_transfers (f : Frame) (b : Balances) (ts : List Transfer) :
    (f.paid b ts).transfers = f.transfers ++ ts := rfl
@[simp] theorem Frame.paid_paid (f : Frame) (b c : Balances) (ts us : List Transfer) :
    (f.paid b ts).paid c us = f.paid c (ts ++ us) := by simp [Frame.paid]
@[simp] theorem Frame.paid_withStore (f : Frame) (b : Balances) (ts : List Transfer) (s : Store) :
    (f.paid b ts).withStore s = (f.withStore s).paid b ts := rfl
@[simp] theorem Frame.paid_nil (f : Frame) : f.paid f.balances [] = f := by simp [Frame.paid]
@[simp] theorem Frame.withStore_paid_nil (f : Frame) (s : Store) :
    (f.withStore s).paid f.balances [] = f.withStore s := Frame.paid_nil (f.withStore s)
@[simp] theorem Frame.withStore_self (f : Frame) : f.withStore f.store = f := rfl

/-- `require_auth`. -/
def requireAuth (a : Address) : Contract Unit := do
  let env ← read
  demand (env.auths a = true)

/-- `token::Client::transfer`. The calling contract may move its own tokens;
any other source must have authorised the transaction. A transfer that fails
traps the caller. -/
def transfer (asset source target : Address) (amount : I128) : Contract Unit := do
  let env ← read
  let f ← get
  let t : Transfer := ⟨asset, source, target, amount.toInt⟩
  demand (source = env.currentContract ∨ env.auths source = true)
  let balances ← okOrTrap (transfer? env.accepts f.balances t)
  set (f.paid balances [t])

@[simp] theorem yields_requireAuth (a : Address) (env : Env) (f f' : Frame) (u : Unit) :
    Yields (requireAuth a) env f u f' ↔ env.auths a = true ∧ f' = f := by
  simp [requireAuth, and_comm]

theorem yields_transfer (asset source target : Address) (amount : I128) (env : Env)
    (f f' : Frame) (u : Unit) :
    Yields (transfer asset source target amount) env f u f' ↔
      (source = env.currentContract ∨ env.auths source = true) ∧
      ∃ b, transferAll? env.accepts f.balances [⟨asset, source, target, amount.toInt⟩] = some b ∧
        f' = f.paid b [⟨asset, source, target, amount.toInt⟩] := by
  simp [transfer, transferAll?_cons]

end SubRosa
