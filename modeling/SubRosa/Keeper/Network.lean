import SubRosa.Auction.Frame
import SubRosa.Keeper.Passes
import SubRosa.Sdk.Client

/-!
# The network of a keeper

What a pass is answered when the RPC node works: a read shows the chain, a call
is executed on it or rejected with the error of the contract, and the timelock
opens a ciphertext or throws. Before every answer others may have acted.
-/

namespace SubRosa.Keeper

open JavaScript Invocation

/-- The chain next to the memory of the pass. -/
abbrev Scene := Memory × Chain

structure Network where
  host : Host
  encoder : Sdk.Encoder
  /-- What others and time can do before an answer. -/
  elapses : Scene → Scene → Prop
  /-- The temporary entry of this bidder can no longer be read. -/
  expired : Scene → RoundKey → Address → Prop
  /-- `waitForRound` may answer this. -/
  published : Scene → UInt64 → Bool → Prop
  /-- The relay may answer this. -/
  relays : Scene → UInt64 → Except Rejection Bytes → Prop
  tlock : Bytes → Except Rejection Bytes

/-! ## The call of a request -/

/-- The call that a request submits, when its arguments encode. -/
def Network.call (n : Network) : Request → Option Call
  | .openReveal id signature => do
    return .openReveal (← n.encoder.u64 id) (← n.encoder.bytesN 96 signature)
  | .openRevealV2 id signature => do
    return .openRevealV2 (← n.encoder.u64 id) (← n.encoder.bytesN 96 signature)
  | .reveal id bidder value nonce => do
    return .reveal (← n.encoder.u64 id) bidder (← n.encoder.i128 value)
      (← n.encoder.bytesN 32 nonce)
  | .revealV2 id bidder envelope => do return .revealV2 (← n.encoder.u64 id) bidder envelope
  | .clear id => (n.encoder.u64 id).map .clear
  | .clearV2 id => (n.encoder.u64 id).map .clearV2
  | .settle id => (n.encoder.u64 id).map .settle
  | .settleV2 id => (n.encoder.u64 id).map .settleV2
  | .void id => (n.encoder.u64 id).map .void
  | .voidV2 id => (n.encoder.u64 id).map .voidV2
  | _ => none

/-! ## Answers -/

/-- A read of a record; a missing one is rejected. -/
def Reading {α : Type} (o : Option α) (a : Except Rejection α) : Prop :=
  match o with
  | some x => a = .ok x
  | none => ∃ r, a = .error r

/-- A transaction of the keeper, with a call or with arguments that do not encode. -/
def Network.Submits {α : Type} (n : Network) (c : Scene) (call : Option Call) (f : Value → α)
    (a : Except Rejection α) (d : Scene) : Prop :=
  match call with
  | none => d = c ∧ ∃ r, a = .error r
  | some call => ∃ tx : Transaction, tx.timestamp = c.2.now ∧
      tx.auths n.host.currentContract = false ∧
      match invoke n.host tx call c.2.world with
      | .ok o => a = .ok (f o.value) ∧ d = (c.1, ⟨o.world, c.2.now⟩)
      | .error e => d = c ∧ ∃ r, a = .error r ∧ ∀ e', e = .error e' → Reports r e'

/-- The winner that a clear returns. -/
def Value.cleared : Value → Option Address
  | .winner w => w
  | _ => none

/-- A seal, unless it has expired. -/
def Network.Shows (n : Network) (c : Scene) (key : Int → Option RoundKey) (id : Int) (b : Address)
    (a : Except Rejection (Option Seal)) : Prop :=
  match key id with
  | none => ∃ r, a = .error r
  | some key => a = .ok (c.2.world.sealOf key b) ∨ n.expired c key b ∧ a = .ok none

/-- What the network does with a request. -/
def Network.Serves (n : Network) (c : Scene) :
    (q : Request) → Except Rejection q.Answer → Scene → Prop
  | .turn, a, d => d = c ∧ a = .ok ()
  | .sleep, a, d => d = c ∧ a = .ok ()
  | .waitForRound round _, a, d => d = c ∧ ∃ b, a = .ok b ∧ n.published c round b
  | .fetchRoundSignature round, a, d => d = c ∧ n.relays c round a
  | .timelockDecrypt ciphertext, a, d => d = c ∧ a = n.tlock ciphertext
  | .getRound id, a, d => d = c ∧ Reading ((n.encoder.u64 id).bind c.2.world.store.round) a
  | .getRoundV2 id, a, d => d = c ∧ Reading ((n.encoder.u64 id).bind c.2.world.store.roundV2) a
  | .getRevealStateV3 id, a, d => d = c ∧
      Reading ((n.encoder.u64 id).bind c.2.world.store.revealV3) a
  | .getBidState id b, a, d =>
    d = c ∧ Reading ((n.encoder.u64 id).bind fun id => c.2.world.store.state id b) a
  | .getSubmissionV2 id b, a, d =>
    d = c ∧ Reading ((n.encoder.u64 id).bind fun id => c.2.world.store.submissionV2 id b) a
  | .bidders id, a, d =>
    d = c ∧ Reading (((n.encoder.u64 id).bind c.2.world.store.round).map Round.bidders) a
  | .getBiddersV2 id, a, d =>
    d = c ∧ Reading (((n.encoder.u64 id).bind c.2.world.store.roundV2).map RoundV2.bidders) a
  | .getSeal id b, a, d => d = c ∧ n.Shows c (fun id => (n.encoder.u64 id).map .v1) id b a
  | .getSealV2 id b, a, d => d = c ∧ n.Shows c (fun id => (n.encoder.u64 id).map .v2) id b a
  | .openReveal id s, a, d => n.Submits c (n.call (.openReveal id s)) (fun _ => ()) a d
  | .openRevealV2 id s, a, d => n.Submits c (n.call (.openRevealV2 id s)) (fun _ => ()) a d
  | .reveal id b v s, a, d => n.Submits c (n.call (.reveal id b v s)) (fun _ => ()) a d
  | .revealV2 id b e, a, d => n.Submits c (n.call (.revealV2 id b e)) (fun _ => ()) a d
  | .clear id, a, d => n.Submits c (n.call (.clear id)) Value.cleared a d
  | .clearV2 id, a, d => n.Submits c (n.call (.clearV2 id)) Value.cleared a d
  | .settle id, a, d => n.Submits c (n.call (.settle id)) (fun _ => ()) a d
  | .settleV2 id, a, d => n.Submits c (n.call (.settleV2 id)) (fun _ => ()) a d
  | .void id, a, d => n.Submits c (n.call (.void id)) (fun _ => ()) a d
  | .voidV2 id, a, d => n.Submits c (n.call (.voidV2 id)) (fun _ => ()) a d

/-- An answer, after something else may have happened. -/
def Network.Answers (n : Network) (c : Scene) (q : Request) (a : Except Rejection q.Answer)
    (d : Scene) : Prop := ∃ c', n.elapses c c' ∧ n.Serves c' q a d

section

variable {n : Network} {c d : Scene} {α : Type}

theorem Reading.some {x : α} {a : Except Rejection α} (h : Reading (some x) a) : a = .ok x := h

theorem ends_ask {q : Request} {r : Except Rejection q.Answer} :
    (ask q).Ends n.Answers c r d ↔ n.Answers c q r d := Coroutine.ends_request

theorem exists_reading (o : Option α) : ∃ a, Reading o a := by
  cases o with
  | none => exact ⟨.error ⟨⟨"", none⟩, []⟩, _, rfl⟩
  | some x => exact ⟨.ok x, rfl⟩

theorem exists_submits (n : Network) (c : Scene) (call : Option Call) (f : Value → α) :
    ∃ a d, n.Submits c call f a d ∧ d.2.now = c.2.now := by
  cases call with
  | none => exact ⟨.error ⟨⟨"", none⟩, []⟩, c, ⟨rfl, _, rfl⟩, rfl⟩
  | some call =>
    let tx : Transaction := ⟨c.2.now, 0, fun _ => false, fun _ => true⟩
    cases hinvoke : invoke n.host tx call c.2.world with
    | ok o =>
      refine ⟨.ok (f o.value), (c.1, ⟨o.world, c.2.now⟩), ⟨tx, rfl, rfl, ?_⟩, rfl⟩
      rw [hinvoke]
      exact ⟨rfl, rfl⟩
    | error e =>
      cases e with
      | error e =>
        obtain ⟨r, hr⟩ := exists_reports e
        refine ⟨.error r, c, ⟨tx, rfl, rfl, ?_⟩, rfl⟩
        rw [hinvoke]
        exact ⟨rfl, r, rfl, fun e' he => by cases he; exact hr⟩
      | trap =>
        refine ⟨.error ⟨⟨"", none⟩, []⟩, c, ⟨tx, rfl, rfl, ?_⟩, rfl⟩
        rw [hinvoke]
        exact ⟨rfl, _, rfl, nofun⟩

theorem exists_shows (n : Network) (c : Scene) (key : Int → Option RoundKey) (id : Int)
    (b : Address) : ∃ a, n.Shows c key id b a := by
  unfold Network.Shows
  cases key id with
  | none => exact ⟨.error ⟨⟨"", none⟩, []⟩, _, rfl⟩
  | some key => exact ⟨_, Or.inl rfl⟩

/-- Every request can be answered, at the time it is made. -/
theorem exists_serves (hpublished : ∀ c round, ∃ b, n.published c round b)
    (hrelays : ∀ c round, ∃ a, n.relays c round a) (c : Scene) (q : Request) :
    ∃ a d, n.Serves c q a d ∧ d.2.now = c.2.now := by
  have hread : ∀ {β : Type} (o : Option β), ∃ a d, (d = c ∧ Reading o a) ∧ d.2.now = c.2.now := by
    intro β o
    obtain ⟨a, ha⟩ := exists_reading o
    exact ⟨a, c, ⟨rfl, ha⟩, rfl⟩
  have hshow : ∀ key id b, ∃ a d, (d = c ∧ n.Shows c key id b a) ∧ d.2.now = c.2.now := by
    intro key id b
    obtain ⟨a, ha⟩ := exists_shows n c key id b
    exact ⟨a, c, ⟨rfl, ha⟩, rfl⟩
  cases q with
  | turn => exact ⟨.ok (), c, ⟨rfl, rfl⟩, rfl⟩
  | sleep => exact ⟨.ok (), c, ⟨rfl, rfl⟩, rfl⟩
  | waitForRound round _ =>
    obtain ⟨b, hb⟩ := hpublished c round
    exact ⟨.ok b, c, ⟨rfl, b, rfl, hb⟩, rfl⟩
  | fetchRoundSignature round =>
    obtain ⟨a, ha⟩ := hrelays c round
    exact ⟨a, c, ⟨rfl, ha⟩, rfl⟩
  | timelockDecrypt ciphertext => exact ⟨n.tlock ciphertext, c, ⟨rfl, rfl⟩, rfl⟩
  | getRound id => exact hread _
  | getRoundV2 id => exact hread _
  | getRevealStateV3 id => exact hread _
  | getBidState id b => exact hread _
  | getSubmissionV2 id b => exact hread _
  | bidders id => exact hread _
  | getBiddersV2 id => exact hread _
  | getSeal id b => exact hshow _ _ _
  | getSealV2 id b => exact hshow _ _ _
  | openReveal id s => exact exists_submits n c (n.call (.openReveal id s)) (fun _ => ())
  | openRevealV2 id s => exact exists_submits n c (n.call (.openRevealV2 id s)) (fun _ => ())
  | reveal id b v s => exact exists_submits n c (n.call (.reveal id b v s)) (fun _ => ())
  | revealV2 id b e => exact exists_submits n c (n.call (.revealV2 id b e)) (fun _ => ())
  | clear id => exact exists_submits ..
  | clearV2 id => exact exists_submits ..
  | settle id => exact exists_submits n c (n.call (.settle id)) (fun _ => ())
  | settleV2 id => exact exists_submits n c (n.call (.settleV2 id)) (fun _ => ())
  | void id => exact exists_submits n c (n.call (.void id)) (fun _ => ())
  | voidV2 id => exact exists_submits n c (n.call (.voidV2 id)) (fun _ => ())

theorem serves_reveal {i value : Int} {b : Address} {nonce : Bytes} {a : Except Rejection Unit} :
    n.Serves c (.reveal i b value nonce) a d ↔
      n.Submits c (n.call (.reveal i b value nonce)) (fun _ => ()) a d := Iff.rfl

theorem serves_revealV2 {i : Int} {b : Address} {e : Bytes} {a : Except Rejection Unit} :
    n.Serves c (.revealV2 i b e) a d ↔
      n.Submits c (n.call (.revealV2 i b e)) (fun _ => ()) a d := Iff.rfl

theorem call_reveal (n : Network) (id : UInt64) (b : Address) (value : MachineInt.I128)
    (nonce : BytesN 32) :
    n.call (.reveal id.toNat b value.toInt nonce.val) = some (.reveal id b value nonce) := by
  rw [Network.call, n.encoder.u64_toNat, n.encoder.i128_toInt, n.encoder.bytesN_val]
  rfl

theorem call_revealV2 (n : Network) (id : UInt64) (b : Address) (e : Bytes) :
    n.call (.revealV2 id.toNat b e) = some (.revealV2 id b e) := by
  rw [Network.call, n.encoder.u64_toNat]
  rfl

/-- What an awaited function does happens before the hop that follows it. -/
theorem ends_call {x : Pass α} {r : Except Rejection α} :
    (call x).Ends n.Answers c r d ↔ ∃ c', x.Ends n.Answers c r c' ∧ n.elapses c' d := by
  unfold call
  rw [Coroutine.ends_attempt_bind]
  constructor
  · rintro ⟨o, c', hx, h⟩
    rcases Coroutine.ends_bind.mp h with ⟨_, d', hturn, hdone⟩ | ⟨e, -, hturn⟩
    · obtain ⟨rfl, rfl⟩ := Coroutine.ends_done.mp hdone
      obtain ⟨c'', helapses, rfl, -⟩ := ends_ask.mp hturn
      exact ⟨c', hx, helapses⟩
    · obtain ⟨c'', -, -, hok⟩ := ends_ask.mp hturn
      cases hok
  · rintro ⟨c', hx, helapses⟩
    refine ⟨r, c', hx, Coroutine.ends_bind.mpr
      (Or.inl ⟨(), d, ?_, Coroutine.ends_done.mpr ⟨rfl, rfl⟩⟩)⟩
    exact ends_ask.mpr ⟨d, helapses, rfl, rfl⟩

theorem ends_lift {deps : KeeperDeps} {x : Except JavaScript.Thrown α} {r : Except Rejection α} :
    (lift deps x).Ends n.Answers c r d ↔
      r = x.mapError (Rejection.ofThrown deps.engine) ∧ d = c := by
  cases x with
  | ok a => exact Coroutine.ends_pure
  | error e => exact Coroutine.ends_fail

end

end SubRosa.Keeper
