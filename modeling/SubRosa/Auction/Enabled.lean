import SubRosa.Auction.Refinement

/-!
# Calls that cannot fail

The other direction of the refinement: when a sealed round can step, and the
outgoing transfers go through, the call of its generation succeeds. No
signature is needed but the Drand one, so anybody can make these calls.
-/

namespace SubRosa

open MachineInt Invocation TokenLedger

/-! ## The calls on a round of either generation -/

namespace RoundKey

def openReveal (signature : BytesN 96) : RoundKey → Call
  | v1 id => .openReveal id signature
  | v2 id => .openRevealV2 id signature

def clear : RoundKey → Call
  | v1 id => .clear id
  | v2 id => .clearV2 id

def settle : RoundKey → Call
  | v1 id => .settle id
  | v2 id => .settleV2 id

def void : RoundKey → Call
  | v1 id => .void id
  | v2 id => .voidV2 id

end RoundKey

/-- Every round of the first generation is an auction; later ones say so. -/
def World.Auction (w : World) : RoundKey → Prop
  | .v1 id => ∃ round, w.store.round id = some round
  | .v2 id => ∃ round, w.store.roundV2 id = some round ∧ round.mode = .Auction

/-- Call after call in one transaction; all of them succeed. -/
def invokeAll (host : Host) (tx : Transaction) : List Call → World → Option (World × List Transfer)
  | [], w => some (w, [])
  | call :: rest, w =>
    match invoke host tx call w with
    | .ok o => (invokeAll host tx rest o.world).map fun p => (p.1, o.transfers ++ p.2)
    | .error _ => none

section

variable {host : Host} {config : GlobalConfig} {tx : Transaction} {w : World} {key : RoundKey}
  {r : SealedRound} {now : Nat}

theorem invokeAll_one {call : Call} {o : Outcome} (h : invoke host tx call w = .ok o) :
    invokeAll host tx [call] w = some (o.world, o.transfers) := by
  simp [invokeAll, h]

theorem invokeAll_two {call call' : Call} {o o' : Outcome} (h : invoke host tx call w = .ok o)
    (h' : invoke host tx call' o.world = .ok o') :
    invokeAll host tx [call, call'] w = some (o'.world, o.transfers ++ o'.transfers) := by
  simp [invokeAll, h, h']

/-- A sound world, as a transaction sees it. -/
theorem World.Sound.env (hw : w.Sound host config now) (tx : Transaction) :
    w.Sound (Env.mk host tx).toHost config now := hw

/-- A body that yields makes the call succeed. -/
theorem invoke_of_yields {α : Type} {call : Call} {x : Contract α} {k : α → Value}
    (hbody : call.body = k <$> x) {a : α} {f' : Frame}
    (h : Yields x ⟨host, tx⟩ w.frame a f') :
    ∃ o, invoke host tx call w = .ok o ∧ o.value = k a := by
  refine ⟨⟨k a, f'.toWorld, f'.transfers⟩, invoke_eq_ok.mpr ?_, rfl⟩
  rw [hbody, yields_map]
  exact ⟨a, h, rfl⟩

/-- The stored round behind a view of the first generation. -/
theorem World.Sound.of_view_v1 (hw : w.Sound host config now) {id : UInt64}
    (hr : w.view (.v1 id) = some r) :
    ∃ round, w.store.round id = some round ∧ r = round.view config (w.store.state id) := by
  rw [hw.view_v1] at hr
  obtain ⟨round, hround, rfl⟩ := Option.map_eq_some_iff.mp hr
  exact ⟨round, hround, rfl⟩

/-- The stored round behind a view of the second and third generation. -/
theorem World.of_view_v2 {id : UInt64} (hr : w.view (.v2 id) = some r) :
    ∃ round, w.store.roundV2 id = some round ∧ r = round.view (w.store.submissionV2 id) := by
  rw [World.view_v2] at hr
  obtain ⟨round, hround, rfl⟩ := Option.map_eq_some_iff.mp hr
  exact ⟨round, hround, rfl⟩

/-- An auction is a round with a payment asset. -/
theorem World.Sound.auction_iff (hw : w.Sound host config now) (hr : w.view key = some r) :
    w.Auction key ↔ r.terms.payment.isSome = true := by
  cases key with
  | v1 id =>
    obtain ⟨round, hround, rfl⟩ := hw.of_view_v1 hr
    exact ⟨fun _ => rfl, fun _ => ⟨round, hround⟩⟩
  | v2 id =>
    obtain ⟨round, hround, rfl⟩ := World.of_view_v2 hr
    have hmode := (hw.consistent id round hround).mode
    constructor
    · rintro ⟨other, hother, hm⟩
      rw [hround, Option.some_inj] at hother
      exact hmode.mp (hother ▸ hm)
    · intro hp
      exact ⟨round, hround, hmode.mpr hp⟩

/-- What a successful call does to the round under its key. -/
theorem World.Sound.invoke_step (hw : w.Sound host config tx.timestamp.toNat)
    (hself : tx.auths host.currentContract = false) {call : Call} {o : Outcome}
    (h : invoke host tx call w = .ok o) (hkey : call.key o.value = some key) {action : Action}
    (haction : call.action = some action) :
    ∃ r r', w.view key = some r ∧ o.world.view key = some r' ∧
      Transition host tx.timestamp.toNat r action o.transfers r' := by
  obtain ⟨key', hkey', href⟩ := invoke_refines hw hself h
  rw [hkey, Option.some_inj] at hkey'
  subst hkey'
  rw [haction] at href
  exact href.step

/-- **Settling.** -/
theorem World.Sound.can_settle (hw : w.Sound host config now) (hr : w.view key = some r)
    (hs : r.status = .Cleared) {winner : Address} (hwin : r.winner = some winner) {b : Balances}
    (hpay : transferAll? tx.accepts w.balances (r.payouts host.currentContract winner) = some b) :
    ∃ o, invoke host tx key.settle w = .ok o := by
  have hp := ((hw.views key r hr).cleared hs).1
  cases key with
  | v1 id =>
    obtain ⟨round, hround, rfl⟩ := hw.of_view_v1 hr
    have hy := (yields_settle (hw.env tx) hround _ ⟨⟩).mpr
      ⟨hs, winner, hwin, b, hpay, rfl⟩
    exact (invoke_of_yields rfl hy).imp fun _ h => h.1
  | v2 id =>
    obtain ⟨round, hround, rfl⟩ := World.of_view_v2 hr
    have hy := (yields_settleV2 (hw.env tx) hround _ ⟨⟩).mpr
      ⟨(hw.consistent id round hround).mode.mpr hp, hs, winner, hwin, b, hpay, rfl⟩
    exact (invoke_of_yields rfl hy).imp fun _ h => h.1

/-- **Voiding.** -/
theorem World.Sound.can_void (hw : w.Sound host config now) (hr : w.view key = some r)
    (hs : r.status = .Open) (ht : r.terms.revealDeadline + 3600 < tx.timestamp.toNat)
    {b : Balances}
    (hpay : transferAll? tx.accepts w.balances (r.refunds host.currentContract) = some b) :
    ∃ o, invoke host tx key.void w = .ok o := by
  cases key with
  | v1 id =>
    obtain ⟨round, hround, rfl⟩ := hw.of_view_v1 hr
    have hy := (yields_void (hw.env tx) hround _ ⟨⟩).mpr ⟨hs, ht, b, hpay, rfl⟩
    exact (invoke_of_yields rfl hy).imp fun _ h => h.1
  | v2 id =>
    obtain ⟨round, hround, rfl⟩ := World.of_view_v2 hr
    have hy := (yields_voidV2 (hw.env tx) hround _ ⟨⟩).mpr
      ⟨hs, grace_lt.mpr ht, b, hpay, rfl⟩
    exact (invoke_of_yields rfl hy).imp fun _ h => h.1

/-- **Clearing.** Only a round without a valid bid makes transfers. -/
theorem World.Sound.can_clear (hw : w.Sound host config now) (hr : w.view key = some r)
    (hs : r.status = .Revealing) (ht : r.terms.revealDeadline < tx.timestamp.toNat)
    (hpay : r.terms.payment.isSome = true → r.best = none →
      ∃ b, transferAll? tx.accepts w.balances (r.refunds host.currentContract) = some b) :
    ∃ o, invoke host tx key.clear w = .ok o ∧
      o.value = .winner (if r.terms.payment.isSome = true then r.best.map Prod.fst else none) := by
  cases key with
  | v1 id =>
    obtain ⟨round, hround, rfl⟩ := hw.of_view_v1 hr
    have ht : round.revealDeadline < tx.timestamp := UInt64.lt_iff_toNat_lt.mpr ht
    have hp : (round.view config (w.store.state id)).terms.payment.isSome = true := rfl
    rw [if_pos hp]
    cases hbest : (round.view config (w.store.state id)).best with
    | none =>
      obtain ⟨b, hb⟩ := hpay hp hbest
      have hy := (yields_clear (hw.env tx) hround _ none).mpr
        ⟨hs, ht, by rw [hbest]; exact ⟨rfl, b, hb, rfl⟩⟩
      exact invoke_of_yields rfl hy
    | some p =>
      obtain ⟨bid, hbid⟩ : ∃ bid : I128, bid.toInt = p.2 := by
        have hscan := (round.hold config id w.store).clearScan
        rw [hbest] at hscan
        exact hscan.imp fun _ h => h.1
      have hy := (yields_clear (hw.env tx) hround _ (some p.1)).mpr
        ⟨hs, ht, by rw [hbest]; exact ⟨rfl, bid, hbid, rfl⟩⟩
      exact invoke_of_yields rfl hy
  | v2 id =>
    obtain ⟨round, hround, rfl⟩ := World.of_view_v2 hr
    have ht : round.revealDeadline < tx.timestamp := UInt64.lt_iff_toNat_lt.mpr ht
    have hmode := (hw.consistent id round hround).mode
    cases hm : round.mode with
    | ReceiptOnly =>
      have hp : ¬ (round.view (w.store.submissionV2 id)).terms.payment.isSome = true := by
        intro hp
        rw [hmode.mpr hp] at hm
        cases hm
      rw [if_neg hp]
      have hy := (yields_clearV2 (hw.env tx) hround _ none).mpr
        ⟨hs, ht, by rw [hm]; exact ⟨rfl, rfl⟩⟩
      exact invoke_of_yields rfl hy
    | Auction =>
      have hp : (round.view (w.store.submissionV2 id)).terms.payment.isSome = true := hmode.mp hm
      rw [if_pos hp]
      cases hbest : (round.view (w.store.submissionV2 id)).best with
      | none =>
        obtain ⟨b, hb⟩ := hpay hp hbest
        have hy := (yields_clearV2 (hw.env tx) hround _ none).mpr
          ⟨hs, ht, by rw [hm, hbest]; exact ⟨rfl, b, hb, rfl⟩⟩
        exact invoke_of_yields rfl hy
      | some p =>
        obtain ⟨bid, hbid⟩ : ∃ bid : I128, bid.toInt = p.2 := by
          have hscan := (round.hold id w.store).clearScan
          rw [hbest] at hscan
          exact hscan.imp fun _ h => h.1
        have hy := (yields_clearV2 (hw.env tx) hround _ (some p.1)).mpr
          ⟨hs, ht, by rw [hm, hbest]; exact ⟨rfl, bid, hbid, rfl⟩⟩
        exact invoke_of_yields rfl hy

end

end SubRosa
