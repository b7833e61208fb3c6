import SubRosa.Auction.Enabled
import SubRosa.Auction.Script

/-!
# Consistent submissions

The stored records of every reachable state agree with their commitments,
their escrows and the status of their round.
-/

namespace SubRosa

open MachineInt

/-- A record of the first generation. -/
structure BidState.Consistent (host : Host) (state : BidState) : Prop where
  revealed : ∀ value, state.revealedValue = some value → ∃ nonce,
    state.revealedNonce = some nonce ∧ host.sha256 (bidPreimage value nonce) = state.commitment ∧
      value ≤ state.escrow ∧ (state.valid = true ↔ 0 < value)
  unrevealed : state.revealedValue = none → state.revealedNonce = none ∧ state.valid = false

/-- A record of the second and third generation. -/
structure SubmissionStateV2.Consistent (host : Host) (mode : RoundMode)
    (state : SubmissionStateV2) : Prop where
  valid : state.valid = true ↔ state.revealedEnvelope.isSome = true
  revealed : ∀ envelope, state.revealedEnvelope = some envelope →
    host.sha256 envelope = state.commitment ∧ decodeEnvelope envelope = .ok ⟨state.revealedAmount⟩
  auction : mode = .Auction → ∀ envelope, state.revealedEnvelope = some envelope →
    ∃ amount, state.revealedAmount = some amount ∧ 0 < amount ∧ amount ≤ state.escrow
  receiptOnly : mode = .ReceiptOnly → state.escrow = 0

/-- What the outcome of a round reads of a record. -/
structure Standing where
  amount : Option I128
  escrow : I128
  settled : Bool

def BidState.standing (state : BidState) : Standing :=
  ⟨state.revealedValue, state.escrow, state.settled⟩

def SubmissionStateV2.standing (state : SubmissionStateV2) : Standing :=
  ⟨state.revealedAmount, state.escrow, state.settled⟩

/-- The outcome of a round and its records. -/
structure OutcomeConsistent (status : Status) (auction : Prop) (bidders : List Address)
    (winner : Option Address) (winningBid : I128) (records : Address → Option Standing) :
    Prop where
  cleared : status = .Cleared → (∃ w s, winner = some w ∧ w ∈ bidders ∧ records w = some s ∧
    s.amount = some winningBid ∧ 0 < winningBid ∧ winningBid ≤ s.escrow) ∧
    ∀ b s, records b = some s → s.settled = false
  closed : status = .Settled ∨ status = .Voided ∧ auction →
    ∀ b s, records b = some s → s.settled = true

section

variable {host : Host} {config : GlobalConfig} {now : Nat} {r : SealedRound}

/-- A winner is a bidder with a recorded amount that the escrow covers. -/
theorem SealedRound.Sound.winner_entry (h : r.Sound host config now)
    (hp : r.terms.payment.isSome = true) {w : Address} {v : Int} (hb : r.best = some (w, v)) :
    w ∈ r.bidders ∧ ∃ e, r.entry w = some e ∧ e.amount = some v ∧ 0 < v ∧ v ≤ e.escrow := by
  have hbest := FirstBest.scan_eq_some hb
  obtain ⟨e, he, hamount, -, h0, hle⟩ := h.validBid hp hbest.1
  exact ⟨hbest.mem, e, he, hamount, h0, hle⟩

/-- The outcome, read through any faithful view of the records. -/
theorem SealedRound.Sound.outcome (h : r.Sound host config now) {winningBid : I128}
    (hbid : r.winningBid = winningBid.toInt) {records : Address → Option Standing}
    (hentry : ∀ b, (r.entry b).map (fun e => (e.amount, e.escrow, e.settled)) =
      (records b).map fun s => (s.amount.map I128.toInt, s.escrow.toInt, s.settled)) :
    OutcomeConsistent r.status (r.terms.payment.isSome = true) r.bidders r.winner winningBid
      records := by
  -- a record and the entry behind it
  have hrecord : ∀ b s, records b = some s → ∃ e, r.entry b = some e ∧ e.settled = s.settled := by
    intro b s hs
    have := hentry b
    rw [hs, Option.map_some] at this
    obtain ⟨e, he, heq⟩ := Option.map_eq_some_iff.mp this
    exact ⟨e, he, (Prod.mk.inj (Prod.mk.inj heq).2).2⟩
  constructor
  · intro hst
    obtain ⟨hp, w, hw, hbest⟩ := h.cleared hst
    obtain ⟨hmem, e, he, hamount, h0, hle⟩ := h.winner_entry hp hbest
    have hwrec := hentry w
    rw [he, Option.map_some] at hwrec
    obtain ⟨s, hs, heq⟩ := Option.map_eq_some_iff.mp hwrec.symm
    obtain ⟨ha, hrest⟩ := Prod.mk.inj heq
    obtain ⟨hescrow, -⟩ := Prod.mk.inj hrest
    rw [hbid] at hamount h0 hle
    refine ⟨⟨w, s, hw, hmem, hs, ?_, (I128.lt_def ..).mpr h0, (I128.le_def ..).mpr ?_⟩, ?_⟩
    · rw [hamount] at ha
      exact map_toInt_inj.mp ha
    · rw [hescrow]
      exact hle
    · intro b s hs
      obtain ⟨e, he, heq⟩ := hrecord b s hs
      rw [← heq]
      exact h.live (Or.inr (Or.inr hst)) b e he
  · intro hst b s hs
    obtain ⟨e, he, heq⟩ := hrecord b s hs
    rw [← heq]
    rcases hst with hst | ⟨hst, hp⟩
    · exact (h.settled hst).1 b e he
    · exact h.voided hst hp b e he

theorem BidState.consistent {state : BidState} {terms : Terms} {asset : Address}
    (h : state.entry.Sound host terms) (hf : terms.format = .bid)
    (hp : terms.payment = some asset) : state.Consistent host := by
  rcases state.recorded h hf with ⟨hvalue, hnonce, hnone⟩ | ⟨value, nonce, hvalue, hnonce, hsome⟩
  · refine ⟨fun v hv => ?_, fun _ => ⟨hnonce, (h.unopened hnone).2⟩⟩
    rw [hvalue] at hv
    cases hv
  · obtain ⟨hash, -, hadmits, hvalid⟩ := h.opened _ hsome
    have hamount : state.entry.amount = some value.toInt := by
      show state.revealedValue.map I128.toInt = some value.toInt
      rw [hvalue, Option.map_some]
    rw [hamount] at hadmits hvalid
    simp only [Terms.Admits, hp, Option.some_inj, exists_eq_left'] at hadmits
    simp only [Terms.validates, hf, Option.any_some] at hvalid
    refine ⟨fun v hv => ?_, fun hnone => ?_⟩
    · rw [hvalue, Option.some_inj] at hv
      subst hv
      have hvalid : state.valid = decide (0 < value.toInt) := hvalid
      refine ⟨nonce, hnonce, hash, (I128.le_def ..).mpr hadmits.1, ?_⟩
      rw [hvalid, decide_eq_true_iff]
      exact Iff.rfl
    · rw [hvalue] at hnone
      cases hnone

theorem SubmissionStateV2.consistent {state : SubmissionStateV2} {terms : Terms} {mode : RoundMode}
    (h : state.entry.Sound host terms) (hf : terms.format = .envelope)
    (hmode : mode = .Auction ↔ terms.payment.isSome = true) : state.Consistent host mode := by
  refine ⟨?_, fun envelope henvelope => ?_, fun hm envelope henvelope => ?_, fun hm => ?_⟩
  · cases hopened : state.revealedEnvelope with
    | none =>
      have hvalid : state.valid = false := (h.unopened hopened).2
      simp [hvalid]
    | some envelope =>
      have hvalid : state.valid = terms.validates state.entry.amount :=
        (h.opened envelope hopened).2.2.2
      simp [hvalid, Terms.validates, hf]
  · obtain ⟨hash, hreads, -⟩ := h.opened envelope henvelope
    rw [hf] at hreads
    obtain ⟨payload, hdecode, hamount⟩ := hreads
    refine ⟨hash, ?_⟩
    rw [hdecode, map_toInt_inj.mp hamount]
  · obtain ⟨asset, hp⟩ := Option.isSome_iff_exists.mp (hmode.mp hm)
    have hadmits := (h.opened envelope henvelope).2.2.1
    simp only [Terms.Admits, hp] at hadmits
    obtain ⟨v, hv, hle, hpos⟩ := hadmits
    obtain ⟨amount, hamount, rfl⟩ := Option.map_eq_some_iff.mp hv
    exact ⟨amount, hamount, (I128.lt_def ..).mpr (hpos hf), (I128.le_def ..).mpr hle⟩
  · have hnone : terms.payment = none := by
      cases hp : terms.payment with
      | none => rfl
      | some asset =>
        rw [hmode.mpr (by simp [hp])] at hm
        cases hm
    have hescrow := h.escrow
    rw [Terms.EscrowOk, hnone] at hescrow
    exact I128.toInt_inj.mp hescrow

/-- **Submission consistency.** -/
theorem submissions_consistent {c₀ c : Chain} {events : List Event} (hd : Deployed config c₀)
    (h : Run host c₀ events c) :
    (∀ id round, c.world.store.round id = some round →
      (∀ b state, c.world.store.state id b = some state → state.Consistent host) ∧
      OutcomeConsistent round.status True round.bidders round.winner round.winningBid
        fun b => (c.world.store.state id b).map BidState.standing) ∧
    ∀ id round, c.world.store.roundV2 id = some round →
      (∀ b state, c.world.store.submissionV2 id b = some state →
        state.Consistent host round.mode) ∧
      OutcomeConsistent round.status (round.mode = .Auction) round.bidders round.winner
        round.winningBid fun b => (c.world.store.submissionV2 id b).map
          SubmissionStateV2.standing := by
  have hw := (h.sound hd.chain_sound).world
  constructor
  · intro id round hround
    have hview : c.world.view (.v1 id) = some (round.view config (c.world.store.state id)) :=
      hw.view_round hround
    have hsound := hw.views _ _ hview
    constructor
    · intro b state hstate
      exact BidState.consistent
        (hsound.entries b state.entry (by simp [Round.view, hstate])) rfl rfl
    · have houtcome : OutcomeConsistent _ _ _ _ round.winningBid
          fun b => (c.world.store.state id b).map BidState.standing :=
        hsound.outcome rfl fun b => by
          simp only [Round.view, Option.map_map]
          rfl
      exact ⟨houtcome.cleared, fun hst => houtcome.closed (hst.imp_right fun h => ⟨h.1, rfl⟩)⟩
  · intro id round hround
    have hview : c.world.view (.v2 id) = some (round.view (c.world.store.submissionV2 id)) :=
      World.view_roundV2 hround
    have hsound := hw.views _ _ hview
    have hmode := (hw.consistent id round hround).mode
    constructor
    · intro b state hstate
      exact SubmissionStateV2.consistent
        (hsound.entries b state.entry (by simp [RoundV2.view, hstate])) rfl hmode
    · have houtcome : OutcomeConsistent _ _ _ _ round.winningBid
          fun b => (c.world.store.submissionV2 id b).map SubmissionStateV2.standing :=
        hsound.outcome rfl fun b => by
          simp only [RoundV2.view, Option.map_map]
          rfl
      exact ⟨houtcome.cleared, fun hst => houtcome.closed
        (hst.imp_right fun h => ⟨h.1, hmode.mp h.2⟩)⟩

/-- The records of the sample after clearing. -/
theorem submissions_consistent_sample : ∃ c events round,
    Run Sample.host Sample.deployed events c ∧ c.world.store.round 1 = some round ∧
    round.status = .Cleared ∧ round.winner = some Sample.alice ∧
    OutcomeConsistent round.status True round.bidders round.winner round.winningBid
      fun b => (c.world.store.state 1 b).map BidState.standing := by
  obtain ⟨c, events, hrun, hvalue⟩ := Chain.exec_reaches Sample.host Sample.deployed Sample.cleared
    (fun c _ => (c.world.store.round 1).map fun round => (round.status, round.winner))
    (some (.Cleared, some Sample.alice)) (by decide +kernel)
  obtain ⟨round, hround, heq⟩ := Option.map_eq_some_iff.mp hvalue
  obtain ⟨hst, hwin⟩ := Prod.mk.inj heq
  exact ⟨c, events, round, hrun, hround, hst, hwin,
    ((submissions_consistent Sample.deployed_ok hrun).1 1 round hround).2⟩

end

end SubRosa
