import SubRosa.Auction.Invariant
import SubRosa.Contract.Loops

/-!
# Rounds as sealed rounds

The abstraction map from contract storage to sealed rounds, for both
generations, and the invariant of a whole world: every stored round is a sound
sealed round, and ids that were not given out are unused.
-/

namespace SubRosa

open MachineInt Invocation TokenLedger

/-! ## Views -/

/-- A value and a nonce are recorded together or not at all; one without the
other reads as an impossible preimage, so that no sound entry has it. -/
def BidState.preimage (state : BidState) : Option Bytes :=
  match state.revealedValue, state.revealedNonce with
  | some value, some nonce => some (bidPreimage value nonce)
  | none, none => none
  | _, _ => some []

def BidState.entry (state : BidState) : Entry where
  commitment := state.commitment
  escrow := state.escrow.toInt
  opened := state.preimage
  amount := state.revealedValue.map I128.toInt
  valid := state.valid
  settled := state.settled

def SubmissionStateV2.entry (state : SubmissionStateV2) : Entry where
  commitment := state.commitment
  escrow := state.escrow.toInt
  opened := state.revealedEnvelope
  amount := state.revealedAmount.map I128.toInt
  valid := state.valid
  settled := state.settled

/-- A preimage is read in one way. -/
theorem Format.Reads.unique {format : Format} {x : Bytes} {a b : Option Int}
    (ha : format.Reads x a) (hb : format.Reads x b) : a = b := by
  cases format with
  | bid =>
    obtain ⟨v, n, rfl, rfl⟩ := ha
    obtain ⟨v', n', hx, rfl⟩ := hb
    rw [(bidPreimage_inj.mp hx).1]
  | envelope =>
    obtain ⟨p, hp, rfl⟩ := ha
    obtain ⟨p', hp', rfl⟩ := hb
    rw [hp, Except.ok.injEq] at hp'
    rw [hp']

theorem map_toInt_inj {a b : Option I128} : a.map I128.toInt = b.map I128.toInt ↔ a = b :=
  (Option.map_injective fun _ _ => I128.toInt_inj.mp).eq_iff

/-- A sound entry records a value with its nonce, or neither. -/
theorem BidState.recorded {state : BidState} {host : Host} {terms : Terms}
    (h : state.entry.Sound host terms) (hf : terms.format = .bid) :
    (state.revealedValue = none ∧ state.revealedNonce = none ∧ state.preimage = none) ∨
    ∃ value nonce, state.revealedValue = some value ∧ state.revealedNonce = some nonce ∧
      state.preimage = some (bidPreimage value nonce) := by
  have himpossible : state.preimage ≠ some [] := by
    intro hopened
    have hreads := (h.opened [] hopened).2.1
    rw [hf] at hreads
    obtain ⟨value, nonce, hx, -⟩ := hreads
    have hlength := congrArg List.length hx
    simp [bidPreimage] at hlength
    omega
  cases hv : state.revealedValue <;> cases hn : state.revealedNonce <;>
    simp [BidState.preimage, hv, hn] at himpossible ⊢

/-- A sound entry determines the record. -/
theorem BidState.eq_of_entry {state state' : BidState} {host : Host} {terms : Terms}
    (h : state.entry.Sound host terms) (hf : terms.format = .bid)
    (heq : state.entry = state'.entry) : state = state' := by
  have h' : state'.entry.Sound host terms := heq ▸ h
  have hpreimage : state.preimage = state'.preimage := congrArg Entry.opened heq
  have hescrow := I128.toInt_inj.mp (congrArg Entry.escrow heq)
  have hvalue := map_toInt_inj.mp (congrArg Entry.amount heq)
  have hnonce : state.revealedNonce = state'.revealedNonce := by
    rcases state.recorded h hf with ⟨-, hn, hp⟩ | ⟨v, n, -, hn, hp⟩ <;>
      rcases state'.recorded h' hf with ⟨-, hn', hp'⟩ | ⟨v', n', -, hn', hp'⟩ <;>
      rw [hp, hp'] at hpreimage
    · rw [hn, hn']
    · cases hpreimage
    · cases hpreimage
    · rw [hn, hn', (bidPreimage_inj.mp (Option.some_inj.mp hpreimage)).2]
  obtain ⟨commitment, escrow, value, nonce, valid, settled⟩ := state
  obtain ⟨commitment', escrow', value', nonce', valid', settled'⟩ := state'
  have hcommitment : commitment = commitment' := congrArg Entry.commitment heq
  have hvalid : valid = valid' := congrArg Entry.valid heq
  have hsettled : settled = settled' := congrArg Entry.settled heq
  simp only [BidState.mk.injEq]
  exact ⟨hcommitment, hescrow, hvalue, hnonce, hvalid, hsettled⟩

theorem SubmissionStateV2.eq_of_entry {state state' : SubmissionStateV2}
    (heq : state.entry = state'.entry) : state = state' := by
  have hescrow := I128.toInt_inj.mp (congrArg Entry.escrow heq)
  have hamount := map_toInt_inj.mp (congrArg Entry.amount heq)
  obtain ⟨commitment, escrow, envelope, amount, valid, settled⟩ := state
  obtain ⟨commitment', escrow', envelope', amount', valid', settled'⟩ := state'
  have hcommitment : commitment = commitment' := congrArg Entry.commitment heq
  have henvelope : envelope = envelope' := congrArg Entry.opened heq
  have hvalid : valid = valid' := congrArg Entry.valid heq
  have hsettled : settled = settled' := congrArg Entry.settled heq
  simp only [SubmissionStateV2.mk.injEq]
  exact ⟨hcommitment, hescrow, henvelope, hamount, hvalid, hsettled⟩

/-- A round of the first generation sells nothing the contract holds. -/
def Round.view (round : Round) (config : GlobalConfig) (states : Address → Option BidState) :
    SealedRound where
  terms := {
    operator := round.operator
    payment := some config.usdc
    lot := none
    rule := round.clearingRule
    format := .bid
    capacity := maxBidders
    revealRound := round.revealRound.toNat
    commitDeadline := round.commitDeadline.toNat
    revealDeadline := round.revealDeadline.toNat }
  status := round.status
  bidders := round.bidders
  entry := fun b => (states b).map BidState.entry
  winner := round.winner
  winningBid := round.winningBid.toInt

def RoundV2.view (round : RoundV2) (submissions : Address → Option SubmissionStateV2) :
    SealedRound where
  terms := {
    operator := round.operator
    payment := round.paymentAsset
    lot := round.lotAsset.map fun asset => (asset, round.lotAmount.toInt)
    rule := round.clearingRule
    format := .envelope
    capacity := round.maxParticipants.toNat
    revealRound := round.revealRound.toNat
    commitDeadline := round.commitDeadline.toNat
    revealDeadline := round.revealDeadline.toNat }
  status := round.status
  bidders := round.bidders
  entry := fun b => (submissions b).map SubmissionStateV2.entry
  winner := round.winner
  winningBid := round.winningBid.toInt

/-- The sealed round stored under a key. -/
def World.view (w : World) : RoundKey → Option SealedRound
  | .v1 id => w.store.config.bind fun config =>
      (w.store.round id).map fun round => round.view config (w.store.state id)
  | .v2 id => (w.store.roundV2 id).map fun round => round.view (w.store.submissionV2 id)

/-! ## The invariant of a world -/

/-- The mode and the assets of a stored round agree. -/
structure RoundV2.Consistent (round : RoundV2) : Prop where
  settlement : match round.mode with
    | .Auction => round.paymentAsset.isSome = true ∧ round.lotAsset.isSome = true ∧
        0 < round.lotAmount
    | .ReceiptOnly => round.paymentAsset = none ∧ round.lotAsset = none ∧ round.lotAmount = 0
  version : round.protocolVersion = coreV2Version ∨ round.protocolVersion = revealPolicyVersion

/-- Nothing is stored under this id. -/
structure Store.Unused (s : Store) (id : UInt64) : Prop where
  round : s.round id = none
  state : ∀ b, s.state id b = none
  roundV2 : s.roundV2 id = none
  submissionV2 : ∀ b, s.submissionV2 id b = none
  policyV2 : s.policyV2 id = none
  revealV3 : s.revealV3 id = none

/-- The last id given out. -/
def Store.lastId (s : Store) : Nat := (s.roundCounter.getD 0).toNat

structure World.Sound (host : Host) (config : GlobalConfig) (now : Nat) (w : World) : Prop where
  configured : w.store.config = some config
  views : ∀ key r, w.view key = some r → r.Sound host config now
  consistent : ∀ id round, w.store.roundV2 id = some round → round.Consistent
  distinct : ∀ id, w.store.round id = none ∨ w.store.roundV2 id = none
  unused : ∀ id, w.store.lastId < id.toNat → w.store.Unused id

/-! ## What a call on one round can change -/

/-- A call on the round under `key` leaves every other round, the configuration
and the policies alone, and of the round itself it changes only the progress. -/
structure Store.Evolves (key : RoundKey) (s s' : Store) : Prop where
  config : s'.config = s.config
  roundCounter : s'.roundCounter = s.roundCounter
  round : ∀ id, .v1 id ≠ key → s'.round id = s.round id
  state : ∀ id, .v1 id ≠ key → s'.state id = s.state id
  sealed : ∀ id, .v1 id ≠ key → s'.sealed id = s.sealed id
  roundV2 : ∀ id, .v2 id ≠ key → s'.roundV2 id = s.roundV2 id
  submissionV2 : ∀ id, .v2 id ≠ key → s'.submissionV2 id = s.submissionV2 id
  sealedV2 : ∀ id, .v2 id ≠ key → s'.sealedV2 id = s.sealedV2 id
  revealV3 : ∀ id, .v2 id ≠ key → s'.revealV3 id = s.revealV3 id
  policyV2 : s'.policyV2 = s.policyV2
  progress : ∀ id round, s.round id = some round → ∃ status bidders winner winningBid,
    s'.round id = some { round with status, bidders, winner, winningBid }
  progressV2 : ∀ id round, s.roundV2 id = some round → ∃ status bidders winner winningBid,
    s'.roundV2 id = some { round with status, bidders, winner, winningBid }
  opening : ∀ id, (s'.revealV3 id).map RevealStateV3.policy =
    (s.revealV3 id).map RevealStateV3.policy

/-- A creation takes the next id and writes only under it. -/
structure Store.Grows (key : RoundKey) (s s' : Store) : Prop where
  next : key.id.toNat = s.lastId + 1
  config : s'.config = s.config
  roundCounter : s'.roundCounter = some key.id
  round : ∀ id, .v1 id ≠ key → s'.round id = s.round id
  state : s'.state = s.state
  sealed : s'.sealed = s.sealed
  roundV2 : ∀ id, .v2 id ≠ key → s'.roundV2 id = s.roundV2 id
  submissionV2 : s'.submissionV2 = s.submissionV2
  sealedV2 : s'.sealedV2 = s.sealedV2
  policyV2 : ∀ id, .v2 id ≠ key → s'.policyV2 id = s.policyV2 id
  revealV3 : ∀ id, .v2 id ≠ key → s'.revealV3 id = s.revealV3 id
  consistent : ∀ id round, .v2 id = key → s'.roundV2 id = some round → round.Consistent
  opening : ∀ id round, .v2 id = key → s'.roundV2 id = some round →
    round.protocolVersion = revealPolicyVersion → (s'.revealV3 id).isSome = true

/-- What a successful call on the round under `key` did, seen from outside. -/
structure World.Advances (env : Env) (key : RoundKey) (action : Action) (w : World)
    (f' : Frame) : Prop where
  step : ∃ r r', w.view key = some r ∧ f'.view key = some r' ∧
    Transition env.toHost env.timestamp.toNat r action f'.transfers r'
  evolves : w.store.Evolves key f'.store
  paid : transferAll? env.accepts w.balances f'.transfers = some f'.balances

/-- The frame an invocation starts in. -/
def World.frame (w : World) : Frame := ⟨w, []⟩

@[simp] theorem World.frame_store (w : World) : w.frame.store = w.store := rfl
@[simp] theorem World.frame_balances (w : World) : w.frame.balances = w.balances := rfl
@[simp] theorem World.frame_transfers (w : World) : w.frame.transfers = [] := rfl

/-- What a successful creation of the round under `key` did. -/
structure World.Creates (env : Env) (config : GlobalConfig) (key : RoundKey) (w : World)
    (f' : Frame) : Prop where
  created : ∃ r, f'.view key = some r ∧ Created env.toHost config env.timestamp.toNat r ∧
    f'.transfers = r.lotFrom env.currentContract r.terms.operator
  grows : w.store.Grows key f'.store
  paid : transferAll? env.accepts w.balances f'.transfers = some f'.balances

section Facts

variable {host : Host} {config : GlobalConfig} {now : Nat} {w w' : World}

theorem World.Sound.view_v1 (h : w.Sound host config now) (id : UInt64) :
    w.view (.v1 id) =
      (w.store.round id).map fun round => round.view config (w.store.state id) := by
  simp [World.view, h.configured]

theorem World.view_v2 (w : World) (id : UInt64) :
    w.view (.v2 id) =
      (w.store.roundV2 id).map fun round => round.view (w.store.submissionV2 id) := rfl

theorem World.Sound.view_round (h : w.Sound host config now) {id : UInt64} {round : Round}
    (hr : w.store.round id = some round) :
    w.view (.v1 id) = some (round.view config (w.store.state id)) := by
  rw [h.view_v1, hr, Option.map_some]

theorem World.view_roundV2 {id : UInt64} {round : RoundV2}
    (hr : w.store.roundV2 id = some round) :
    w.view (.v2 id) = some (round.view (w.store.submissionV2 id)) := by
  rw [World.view_v2, hr, Option.map_some]

/-- Every bidder of the index has a record. -/
theorem Round.entered {round : Round} {states : Address → Option BidState}
    (h : (round.view config states).Sound host config now) {b : Address} (hb : b ∈ round.bidders) :
    ∃ state, states b = some state := by
  simpa [Round.view, Option.isSome_iff_exists] using (h.entered b).mp hb

theorem RoundV2.entered {round : RoundV2} {submissions : Address → Option SubmissionStateV2}
    (h : (round.view submissions).Sound host config now) {b : Address} (hb : b ∈ round.bidders) :
    ∃ state, submissions b = some state := by
  simpa [RoundV2.view, Option.isSome_iff_exists] using (h.entered b).mp hb

/-- Other rounds look the same. -/
theorem Store.Evolves.view {key other : RoundKey} (h : w.store.Evolves key w'.store)
    (hne : other ≠ key) : w'.view other = w.view other := by
  cases other with
  | v1 id => simp only [World.view, h.config, h.round id hne, h.state id hne]
  | v2 id => simp only [World.view, h.roundV2 id hne, h.submissionV2 id hne]

theorem World.Sound.later (h : w.Sound host config now) {now' : Nat} (hn : now ≤ now') :
    w.Sound host config now' :=
  { h with views := fun key r hr => (h.views key r hr).later hn }

/-- Whatever is stored under an id that was given out stays there. -/
theorem Store.Evolves.unused {key : RoundKey} {s s' : Store} (h : s.Evolves key s')
    {id : UInt64} (hid : id ≠ key.id) (hu : s.Unused id) : s'.Unused id := by
  have h1 : RoundKey.v1 id ≠ key := by rintro rfl; exact hid rfl
  have h2 : RoundKey.v2 id ≠ key := by rintro rfl; exact hid rfl
  exact {
    round := by rw [h.round id h1, hu.round]
    state := fun b => by rw [h.state id h1, hu.state]
    roundV2 := by rw [h.roundV2 id h2, hu.roundV2]
    submissionV2 := fun b => by rw [h.submissionV2 id h2, hu.submissionV2]
    policyV2 := by rw [h.policyV2, hu.policyV2]
    revealV3 := by rw [h.revealV3 id h2, hu.revealV3] }

/-- A key with a round has been given out. -/
theorem World.Sound.key_used (h : w.Sound host config now) {key : RoundKey} {r : SealedRound}
    (hr : w.view key = some r) : key.id.toNat ≤ w.store.lastId := by
  by_contra hlt
  have hu := h.unused key.id (by omega)
  cases key with
  | v1 id => simp [World.view, h.configured, show w.store.round id = none from hu.round] at hr
  | v2 id => simp [World.view, show w.store.roundV2 id = none from hu.roundV2] at hr

/-- A call on one round keeps the world sound when it keeps that round sound. -/
theorem World.Sound.evolves (h : w.Sound host config now) {key : RoundKey} {r r' : SealedRound}
    (hr : w.view key = some r) (hr' : w'.view key = some r') (hs : r'.Sound host config now)
    (he : w.store.Evolves key w'.store) : w'.Sound host config now where
  configured := by rw [he.config, h.configured]
  views other q hq := by
    by_cases hne : other = key
    · subst hne
      rw [hr', Option.some_inj] at hq
      rwa [← hq]
    · rw [he.view hne] at hq
      exact h.views other q hq
  consistent id round hround := by
    cases hold : w.store.roundV2 id with
    | some old =>
      obtain ⟨_, _, _, _, hnew⟩ := he.progressV2 id old hold
      rw [hnew, Option.some_inj] at hround
      have hc := h.consistent id old hold
      rw [← hround]
      exact ⟨hc.settlement, hc.version⟩
    | none =>
      by_cases hne : RoundKey.v2 id = key
      · subst hne
        simp [World.view, hold] at hr
      · rw [he.roundV2 id hne, hold] at hround
        cases hround
  distinct id := by
    rcases h.distinct id with hnone | hnone
    · left
      by_cases hne : RoundKey.v1 id = key
      · subst hne
        simp [World.view, h.configured, hnone] at hr
      · rw [he.round id hne, hnone]
    · right
      by_cases hne : RoundKey.v2 id = key
      · subst hne
        simp [World.view, hnone] at hr
      · rw [he.roundV2 id hne, hnone]
  unused id hid := by
    have hlast : w'.store.lastId = w.store.lastId := by rw [Store.lastId, he.roundCounter]; rfl
    rw [hlast] at hid
    have hkey := h.key_used hr
    exact he.unused (by rintro rfl; omega) (h.unused id hid)

/-- Other rounds look the same after a creation. -/
theorem Store.Grows.view {key other : RoundKey} (h : w.store.Grows key w'.store)
    (hne : other ≠ key) : w'.view other = w.view other := by
  cases other with
  | v1 id => simp only [World.view, h.config, h.round id hne, h.state]
  | v2 id => simp only [World.view, h.roundV2 id hne, h.submissionV2]

/-- A creation does not touch a key that was given out. -/
theorem World.Sound.fresh (h : w.Sound host config now) {key : RoundKey} {s' : Store}
    (hg : w.store.Grows key s') : w.view key = none ∧ w.store.Unused key.id := by
  have hunused := h.unused key.id (by have := hg.next; omega)
  refine ⟨?_, hunused⟩
  by_contra hsome
  obtain ⟨r, hr⟩ := Option.ne_none_iff_exists'.mp hsome
  have := h.key_used hr
  have := hg.next
  omega

/-- A creation keeps the world sound. -/
theorem World.Sound.grows (h : w.Sound host config now) {key : RoundKey} {r : SealedRound}
    (hr : w'.view key = some r) (hs : r.Sound host config now)
    (hg : w.store.Grows key w'.store) : w'.Sound host config now := by
  obtain ⟨hnone, hunused⟩ := h.fresh hg
  have hlast : w'.store.lastId = w.store.lastId + 1 := by
    rw [Store.lastId, hg.roundCounter, Option.getD_some, hg.next]
  refine {
    configured := by rw [hg.config, h.configured]
    views := fun other q hq => ?_
    consistent := fun id round hround => ?_
    distinct := fun id => ?_
    unused := fun id hid => ?_ }
  · by_cases hne : other = key
    · subst hne
      rw [hr, Option.some_inj] at hq
      rwa [← hq]
    · rw [hg.view hne] at hq
      exact h.views other q hq
  · by_cases hne : RoundKey.v2 id = key
    · exact hg.consistent id round hne hround
    · rw [hg.roundV2 id hne] at hround
      exact h.consistent id round hround
  · cases key with
    | v1 j =>
      rw [hg.roundV2 id (by simp)]
      by_cases hne : id = j
      · subst hne
        exact Or.inr hunused.roundV2
      · rw [hg.round id (by simpa using hne)]
        exact h.distinct id
    | v2 j =>
      rw [hg.round id (by simp)]
      by_cases hne : id = j
      · subst hne
        exact Or.inl hunused.round
      · rw [hg.roundV2 id (by simpa using hne)]
        exact h.distinct id
  · have hold := h.unused id (by omega)
    have hid : id ≠ key.id := by
      rintro rfl
      have := hg.next
      omega
    have h1 : RoundKey.v1 id ≠ key := by rintro rfl; exact hid rfl
    have h2 : RoundKey.v2 id ≠ key := by rintro rfl; exact hid rfl
    exact {
      round := by rw [hg.round id h1, hold.round]
      state := fun b => by rw [hg.state, hold.state]
      roundV2 := by rw [hg.roundV2 id h2, hold.roundV2]
      submissionV2 := fun b => by rw [hg.submissionV2, hold.submissionV2]
      policyV2 := by rw [hg.policyV2 id h2, hold.policyV2]
      revealV3 := by rw [hg.revealV3 id h2, hold.revealV3] }

/-- Storage that holds rounds of neither generation is sound. -/
theorem Deployed.sound {c : Chain} (h : Deployed config c) :
    c.world.Sound host config now := by
  have hs := h.1
  exact {
    configured := by rw [hs]
    views := fun key r hr => by cases key <;> simp [World.view, hs, Store.empty] at hr
    consistent := fun id round hr => by simp [hs, Store.empty] at hr
    distinct := fun id => by simp [hs, Store.empty]
    unused := fun id _ => by
      constructor <;> simp [hs, Store.empty] }

end Facts

end SubRosa
