import SubRosa.Contract.RoundsV2
import SubRosa.Library.Runs

/-!
# Calls and runs

A deployed contract is driven by calls of its entry points. A successful call
commits its storage writes and token transfers, a failing one leaves the
world as it was. Between calls other accounts move tokens, and a reveal-policy
record may become unreadable (archived entries fail closed). Ledger time never
decreases, and nobody outside can authorise as the contract.
-/

namespace SubRosa

open MachineInt Invocation TokenLedger

inductive Call
  | createRound (args : RoundArgs)
  | createRoundV2 (args : RoundArgsV2) (settlement : SettlementConfig)
  | createPartnerRoundV2 (args : RoundArgsV2) (policy : RoundPolicyV2)
  | createRoundV3 (args : RoundArgsV2) (policy : RoundPolicyV3)
  | commit (roundId : UInt64) (bidder : Address) (commitment : BytesN 32) (ciphertext : Bytes)
      (escrow : I128) (auditorBlob : Bytes)
  | commitV2 (roundId : UInt64) (bidder : Address) (commitment : BytesN 32) (ciphertext : Bytes)
      (escrow : I128) (auditorBlob : Bytes)
  | openReveal (roundId : UInt64) (drandSignature : BytesN 96)
  | openRevealV2 (roundId : UInt64) (drandSignature : BytesN 96)
  | reveal (roundId : UInt64) (bidder : Address) (value : I128) (nonce : BytesN 32)
  | revealV2 (roundId : UInt64) (bidder : Address) (envelope : Bytes)
  | clear (roundId : UInt64)
  | clearV2 (roundId : UInt64)
  | settle (roundId : UInt64)
  | settleV2 (roundId : UInt64)
  | void (roundId : UInt64)
  | voidV2 (roundId : UInt64)

/-- What an entry point returns. -/
inductive Value
  | unit
  | roundId (id : UInt64)
  | winner (bidder : Option Address)
  deriving DecidableEq

def Call.body : Call → Contract Value
  | .createRound args => Value.roundId <$> SubRosa.createRound args
  | .createRoundV2 args settlement => Value.roundId <$> SubRosa.createRoundV2 args settlement
  | .createPartnerRoundV2 args policy =>
      Value.roundId <$> SubRosa.createPartnerRoundV2 args policy
  | .createRoundV3 args policy => Value.roundId <$> SubRosa.createRoundV3 args policy
  | .commit id bidder commitment ciphertext escrow blob =>
      (fun _ => .unit) <$> SubRosa.commit id bidder commitment ciphertext escrow blob
  | .commitV2 id bidder commitment ciphertext escrow blob =>
      (fun _ => .unit) <$> SubRosa.commitV2 id bidder commitment ciphertext escrow blob
  | .openReveal id signature => (fun _ => .unit) <$> SubRosa.openReveal id signature
  | .openRevealV2 id signature => (fun _ => .unit) <$> SubRosa.openRevealV2 id signature
  | .reveal id bidder value nonce => (fun _ => .unit) <$> SubRosa.reveal id bidder value nonce
  | .revealV2 id bidder envelope => (fun _ => .unit) <$> SubRosa.revealV2 id bidder envelope
  | .clear id => Value.winner <$> SubRosa.clear id
  | .clearV2 id => Value.winner <$> SubRosa.clearV2 id
  | .settle id => (fun _ => .unit) <$> SubRosa.settle id
  | .settleV2 id => (fun _ => .unit) <$> SubRosa.settleV2 id
  | .void id => (fun _ => .unit) <$> SubRosa.void id
  | .voidV2 id => (fun _ => .unit) <$> SubRosa.voidV2 id

/-! ## Rounds of both generations -/

/-- The key space and the id of a round. -/
inductive RoundKey
  | v1 (id : UInt64)
  | v2 (id : UInt64)
  deriving DecidableEq

def RoundKey.id : RoundKey → UInt64
  | .v1 id => id
  | .v2 id => id

/-- The round a call works on; a creation works on the round it returns. -/
def Call.key : Call → Value → Option RoundKey
  | .createRound _, .roundId id => some (.v1 id)
  | .createRoundV2 _ _, .roundId id => some (.v2 id)
  | .createPartnerRoundV2 _ _, .roundId id => some (.v2 id)
  | .createRoundV3 _ _, .roundId id => some (.v2 id)
  | .commit id _ _ _ _ _, _ => some (.v1 id)
  | .commitV2 id _ _ _ _ _, _ => some (.v2 id)
  | .openReveal id _, _ => some (.v1 id)
  | .openRevealV2 id _, _ => some (.v2 id)
  | .reveal id _ _ _, _ => some (.v1 id)
  | .revealV2 id _ _, _ => some (.v2 id)
  | .clear id, _ => some (.v1 id)
  | .clearV2 id, _ => some (.v2 id)
  | .settle id, _ => some (.v1 id)
  | .settleV2 id, _ => some (.v2 id)
  | .void id, _ => some (.v1 id)
  | .voidV2 id, _ => some (.v2 id)
  | _, _ => none

/-! ## One transaction -/

/-- What a successful call returned, the world after it and what it moved. -/
structure Outcome where
  value : Value
  world : World
  transfers : List Transfer

/-- Run one call; a failure returns no world. -/
def invoke (host : Host) (tx : Transaction) (call : Call) (w : World) :
    Except (Failure Error) Outcome :=
  match call.body ⟨host, tx⟩ ⟨w, []⟩ with
  | .ok (value, f) => .ok ⟨value, f.toWorld, f.transfers⟩
  | .error e => .error e

theorem invoke_eq_ok {host : Host} {tx : Transaction} {call : Call} {w : World} {o : Outcome} :
    invoke host tx call w = .ok o ↔
      Yields call.body ⟨host, tx⟩ ⟨w, []⟩ o.value ⟨o.world, o.transfers⟩ := by
  unfold invoke Yields
  cases call.body ⟨host, tx⟩ ⟨w, []⟩ with
  | error e => simp
  | ok p =>
    obtain ⟨v, f⟩ := p
    obtain ⟨v', w', ts⟩ := o
    obtain ⟨fw, fts⟩ := f
    simp

theorem invoke_eq_error {host : Host} {tx : Transaction} {call : Call} {w : World}
    {e : Failure Error} :
    invoke host tx call w = .error e ↔ Fails call.body ⟨host, tx⟩ ⟨w, []⟩ e := by
  unfold invoke Fails
  cases call.body ⟨host, tx⟩ ⟨w, []⟩ with
  | error e => simp
  | ok p => simp

/-! ## The chain -/

structure Chain where
  world : World
  now : UInt64

inductive Event
  | called (tx : Transaction) (call : Call) (value : Value) (transfers : List Transfer)
  | failed (tx : Transaction) (call : Call)
  | outside (t : Transfer)
  | revealStateLost (roundId : UInt64)

/-- The world without the reveal-policy record of a round. -/
def World.loseRevealState (w : World) (roundId : UInt64) : World :=
  { w with store := { w.store with revealV3 := Function.update w.store.revealV3 roundId none } }

inductive Step (host : Host) : Chain → Event → Chain → Prop
  | called {c : Chain} {tx : Transaction} {call : Call} {o : Outcome} :
      c.now ≤ tx.timestamp → tx.auths host.currentContract = false →
      invoke host tx call c.world = .ok o →
      Step host c (.called tx call o.value o.transfers) ⟨o.world, tx.timestamp⟩
  | failed {c : Chain} {tx : Transaction} {call : Call} {e : Failure Error} :
      c.now ≤ tx.timestamp → tx.auths host.currentContract = false →
      invoke host tx call c.world = .error e →
      Step host c (.failed tx call) ⟨c.world, tx.timestamp⟩
  | outside {c : Chain} {t : Transfer} {b : Balances} :
      t.source ≠ host.currentContract →
      transfer? (fun _ => true) c.world.balances t = some b →
      Step host c (.outside t) ⟨{ c.world with balances := b }, c.now⟩
  | revealStateLost {c : Chain} (roundId : UInt64) :
      Step host c (.revealStateLost roundId) ⟨c.world.loseRevealState roundId, c.now⟩

abbrev Run (host : Host) := Runs.Run (Step host)

/-- The chain right after deployment: the configuration is stored, nothing
else is, and no balance is negative. -/
def Deployed (config : GlobalConfig) (c : Chain) : Prop :=
  c.world.store = { Store.empty with config := some config } ∧
    ∀ a x, 0 ≤ c.world.balances a x

/-- Deployment runs the constructor on an empty store. -/
theorem construct_deployed {config : GlobalConfig} {env : Env} {b : Balances} {f : Frame}
    (h : Yields (construct config) env ⟨⟨Store.empty, b⟩, []⟩ () f) (now : UInt64)
    (hb : ∀ a x, 0 ≤ b a x) : Deployed config ⟨f.toWorld, now⟩ := by
  simp only [construct, setConfig, yields_bind, yields_get, yields_failIf, yields_modify] at h
  obtain ⟨_, _, ⟨rfl, rfl⟩, _, _, ⟨-, rfl⟩, rfl⟩ := h
  exact ⟨rfl, hb⟩

/-! ## What a run moved -/

/-- The transfers of an event. -/
def Event.transfers : Event → List Transfer
  | .called _ _ _ transfers => transfers
  | .outside t => [t]
  | _ => []

/-- The transfers an event caused on behalf of a round. -/
def Event.movedFor (key : RoundKey) : Event → List Transfer
  | .called _ call value transfers => if call.key value = some key then transfers else []
  | _ => []

/-- Every transfer a run caused on behalf of a round, in order. -/
def roundLedger (key : RoundKey) (events : List Event) : List Transfer :=
  events.flatMap (Event.movedFor key)

/-- What an event gave to the contract from outside in one asset. -/
def Event.donated (host : Host) (asset : Address) : Event → Int
  | .outside t => if t.asset = asset ∧ t.target = host.currentContract then t.amount else 0
  | _ => 0

def donations (host : Host) (asset : Address) (events : List Event) : Int :=
  (events.map (Event.donated host asset)).sum

end SubRosa
