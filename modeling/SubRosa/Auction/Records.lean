import SubRosa.Auction.View

/-!
# The records behind a sealed round

The loops of the contract on the records of a sound live round: the payouts
are the transfers of the abstract step, the marks are `close`, and the winner
scan finds the first best bid. Stated once for both kinds of record.
-/

namespace SubRosa

open MachineInt Invocation TokenLedger EscrowRecord

/-- A record that reads as an entry. -/
class SealedRecord (S : Type) extends EscrowRecord S where
  entry : S → Entry
  validBid : S → Option I128
  entry_escrow : ∀ st, (entry st).escrow = (escrow st).toInt
  entry_settled : ∀ st, (entry st).settled = settled st
  entry_markSettled : ∀ st, entry (markSettled st) = (entry st).close
  entry_validBid : ∀ st, (entry st).validBid = (validBid st).map I128.toInt

instance : SealedRecord BidState where
  entry := BidState.entry
  validBid := BidState.validBid
  entry_escrow _ := rfl
  entry_settled _ := rfl
  entry_markSettled _ := rfl
  entry_validBid st := by
    show (if st.valid = true then _ else none) = _
    unfold BidState.validBid
    split <;> rfl

instance : SealedRecord SubmissionStateV2 where
  entry := SubmissionStateV2.entry
  validBid := SubmissionStateV2.validBid
  entry_escrow _ := rfl
  entry_settled _ := rfl
  entry_markSettled _ := rfl
  entry_validBid st := by
    show (if st.valid = true then _ else none) = _
    unfold SubmissionStateV2.validBid
    split <;> rfl

variable {S : Type} [SealedRecord S]

/-- The store with every record of the round marked. -/
def Records.closeAll (R : Records S) (s : Store) : Store :=
  R.write s fun b => (R.read s b).map markSettled

/-- The entries of `r` are read from these records. -/
def Records.Hold (R : Records S) (s : Store) (r : SealedRound) : Prop :=
  ∀ b, r.entry b = (R.read s b).map SealedRecord.entry

section Loops

variable {R : Records S} {s : Store} {r : SealedRound} {host : Host} {config : GlobalConfig}
  {now : Nat}

theorem Records.Hold.record (h : R.Hold s r) (hs : r.Sound host config now) {b : Address}
    (hb : b ∈ r.bidders) :
    ∃ st, R.read s b = some st ∧ r.entry b = some (SealedRecord.entry st) := by
  have hsome := (hs.entered b).mp hb
  rw [h b, Option.isSome_map] at hsome
  obtain ⟨st, hst⟩ := Option.isSome_iff_exists.mp hsome
  exact ⟨st, hst, by rw [h b, hst, Option.map_some]⟩

/-- The bidders are exactly those with a record, so marking them marks everybody. -/
theorem Records.Hold.markAll (h : R.Hold s r) (hs : r.Sound host config now) :
    R.markAll markSettled r.bidders s = R.closeAll s := by
  unfold Records.markAll Records.closeAll
  congr 1
  funext b
  split
  · rfl
  · next hb =>
    have hnone := mt (hs.entered b).mpr hb
    rw [h b, Option.isSome_map, Bool.not_eq_true, Option.isSome_eq_false_iff,
      Option.isNone_iff_eq_none] at hnone
    rw [hnone]
    rfl

/-- The records of a live round are there and unsettled. -/
theorem Records.Hold.ready (h : R.Hold s r) (hs : r.Sound host config now) (hlive : r.Live) :
    ∀ b ∈ r.bidders, ∃ st, R.read s b = some st ∧ settled st = false := by
  intro b hb
  obtain ⟨st, hst, he⟩ := h.record hs hb
  exact ⟨st, hst, by rw [← SealedRecord.entry_settled]; exact hs.live hlive b _ he⟩

theorem Records.Hold.escrowOf (h : R.Hold s r) {b : Address} {st : S}
    (hst : R.read s b = some st) : r.escrowOf b = (escrow st).toInt := by
  simp [SealedRound.escrowOf, h b, hst, SealedRecord.entry_escrow]

theorem Records.Hold.batch_refunds (h : R.Hold s r) (hs : r.Sound host config now)
    {asset : Address} (hp : r.terms.payment = some asset) (contract : Address) :
    R.batch (fun b st => payment contract asset b (escrow st)) r.bidders s =
      r.bidders.flatMap fun b => r.pay contract b (r.escrowOf b) := by
  unfold Records.batch
  apply List.flatMap_congr
  intro b hb
  obtain ⟨st, hst, -⟩ := h.record hs hb
  simp [hst, payment, SealedRound.pay, hp, h.escrowOf hst, I128.lt_def]

theorem Records.Hold.batch_payouts (h : R.Hold s r) (hs : r.Sound host config now)
    {asset w : Address} {winningBid : I128} (hp : r.terms.payment = some asset)
    (hbid : r.winningBid = winningBid.toInt) (contract : Address) :
    R.batch (settlement contract asset r.terms.operator w winningBid) r.bidders s =
      r.bidders.flatMap fun b => r.payoutOf contract w b := by
  unfold Records.batch
  apply List.flatMap_congr
  intro b hb
  obtain ⟨st, hst, -⟩ := h.record hs hb
  simp [hst, settlement, payment, SealedRound.payoutOf, SealedRound.pay, hp, hbid,
    h.escrowOf hst, I128.lt_def]

/-- **Refund loop of the first generation.** -/
theorem Records.Hold.yields_refundBidders {f : Frame} (h : R.Hold f.store r)
    (hs : r.Sound host config now) (hlive : r.Live) {asset : Address}
    (hp : r.terms.payment = some asset) (env : Env) (f' : Frame) (u : Unit) :
    Yields (refundBidders R asset r.bidders) env f u f' ↔
      ∃ c, transferAll? env.accepts f.balances
          (r.bidders.flatMap fun b => r.pay env.currentContract b (r.escrowOf b)) = some c ∧
        f' = (f.withStore (R.closeAll f.store)).paid c
          (r.bidders.flatMap fun b => r.pay env.currentContract b (r.escrowOf b)) := by
  have hready : ∀ b ∈ r.bidders, ∃ st, R.read f.store b = some st ∧ settled st = false ∧
      0 < escrow st := by
    intro b hb
    obtain ⟨st, hst, hset⟩ := h.ready hs hlive b hb
    have hescrow := (hs.entries b _ (by rw [h b, hst]; rfl)).escrow
    rw [Terms.EscrowOk, hp, SealedRecord.entry_escrow] at hescrow
    exact ⟨st, hst, hset, hescrow⟩
  rw [SubRosa.yields_refundBidders R env asset hs.nodup hready, h.batch_refunds hs hp,
    h.markAll hs]

/-- **Refund loop of the second generation.** -/
theorem Records.Hold.yields_refundBiddersV2 {f : Frame} (h : R.Hold f.store r)
    (hs : r.Sound host config now) (hlive : r.Live) {asset : Address}
    (hp : r.terms.payment = some asset) (env : Env) (f' : Frame) (u : Unit) :
    Yields (refundBiddersV2 R asset r.bidders) env f u f' ↔
      ∃ c, transferAll? env.accepts f.balances
          (r.bidders.flatMap fun b => r.pay env.currentContract b (r.escrowOf b)) = some c ∧
        f' = (f.withStore (R.closeAll f.store)).paid c
          (r.bidders.flatMap fun b => r.pay env.currentContract b (r.escrowOf b)) := by
  rw [SubRosa.yields_refundBiddersV2 R env asset hs.nodup (h.ready hs hlive),
    h.batch_refunds hs hp, h.markAll hs]

/-- **Settlement loop.** -/
theorem Records.Hold.yields_settleBidders {f : Frame} (h : R.Hold f.store r)
    (hs : r.Sound host config now) (hc : r.status = .Cleared) {asset w : Address}
    {winningBid : I128} (hp : r.terms.payment = some asset) (hw : r.winner = some w)
    (hbid : r.winningBid = winningBid.toInt) (env : Env) (f' : Frame) (u : Unit) :
    Yields (settleBidders R asset r.terms.operator w winningBid r.bidders) env f u f' ↔
      ∃ c, transferAll? env.accepts f.balances
          (r.bidders.flatMap fun b => r.payoutOf env.currentContract w b) = some c ∧
        f' = (f.withStore (R.closeAll f.store)).paid c
          (r.bidders.flatMap fun b => r.payoutOf env.currentContract w b) := by
  obtain ⟨hpay, w', hw', hbest⟩ := hs.cleared hc
  obtain rfl : w = w' := by rw [hw, Option.some_inj] at hw'; exact hw'
  obtain ⟨-, hpos, hcover⟩ := hs.winner_covered hpay hbest
  rw [hbid] at hpos hcover
  have hready : ∀ b ∈ r.bidders, ∃ st, R.read f.store b = some st ∧ settled st = false ∧
      (b = w → winningBid ≤ escrow st) := by
    intro b hb
    obtain ⟨st, hst, hset⟩ := h.ready hs (Or.inr (Or.inr hc)) b hb
    refine ⟨st, hst, hset, ?_⟩
    rintro rfl
    rwa [h.escrowOf hst] at hcover
  rw [SubRosa.yields_settleBidders R env asset r.terms.operator w (le_of_lt hpos) hs.nodup hready,
    h.batch_payouts hs hp hbid, h.markAll hs]

/-! ## The winner scan -/

/-- One candidate of the contract's scan is one candidate of the pass. -/
theorem ClearScan.consider_eq (rule : ClearingRule) (b : Address) (v : I128)
    (best : Option (Address × I128)) :
    (⟨best.map Prod.fst, (best.map Prod.snd).getD 0, best.isSome⟩ : ClearScan).consider rule b v =
      let next := FirstBest.keep (fun u v : I128 => rule.Better u.toInt v.toInt) best b v
      ⟨next.map Prod.fst, (next.map Prod.snd).getD 0, next.isSome⟩ := by
  cases best with
  | none => rfl
  | some p =>
    obtain ⟨w, u⟩ := p
    cases rule with
    | HighestBid =>
      by_cases h : u.toInt < v.toInt <;>
        simp [ClearScan.consider, FirstBest.keep, ClearingRule.Better, I128.lt_def, h]
    | LowestBid =>
      by_cases h : v.toInt < u.toInt <;>
        simp [ClearScan.consider, FirstBest.keep, ClearingRule.Better, I128.lt_def, h]

/-- The scan of the contract is the pass for the first best value. -/
theorem clearScan_eq (rule : ClearingRule) (validBid : Address → Option I128)
    (l : List Address) :
    let best := FirstBest.scan (fun u v : I128 => rule.Better u.toInt v.toInt) validBid l
    clearScan rule validBid l = ⟨best.map Prod.fst, (best.map Prod.snd).getD 0, best.isSome⟩ := by
  induction l using List.reverseRecOn with
  | nil => rfl
  | append_singleton l b ih =>
    intro best
    have hstep : clearScan rule validBid (l ++ [b]) = (validBid b).elim
        (clearScan rule validBid l) ((clearScan rule validBid l).consider rule b) := by
      rw [clearScan, List.foldl_append]
      cases hv : validBid b <;> simp [clearScan, hv]
    have hbest : best = FirstBest.visit (fun u v : I128 => rule.Better u.toInt v.toInt) validBid
        (FirstBest.scan _ validBid l) b := FirstBest.scan_append_singleton validBid l b
    rw [hstep, hbest, FirstBest.visit]
    cases hv : validBid b with
    | none => exact ih
    | some v =>
      simp only [Option.elim_some] at ih ⊢
      rw [ih, ClearScan.consider_eq]

theorem Records.Hold.validBid (h : R.Hold s r) (b : Address) :
    r.validBid b = ((R.read s b).bind SealedRecord.validBid).map I128.toInt := by
  unfold SealedRound.validBid
  rw [h b]
  cases R.read s b with
  | none => rfl
  | some st => exact SealedRecord.entry_validBid st

/-- **What the winner scan finds.** -/
theorem Records.Hold.clearScan (h : R.Hold s r) :
    match r.best with
    | none => clearScan r.terms.rule (fun b => (R.read s b).bind SealedRecord.validBid) r.bidders =
        ⟨none, 0, false⟩
    | some (w, v) => ∃ best : I128, best.toInt = v ∧
        clearScan r.terms.rule (fun b => (R.read s b).bind SealedRecord.validBid) r.bidders =
          ⟨some w, best, true⟩ := by
  have hbest : r.best = (FirstBest.scan (fun u v : I128 => r.terms.rule.Better u.toInt v.toInt)
      (fun b => (R.read s b).bind SealedRecord.validBid) r.bidders).map
        fun p => (p.1, p.2.toInt) := by
    rw [← FirstBest.scan_map (g := I128.toInt) fun _ _ => Iff.rfl]
    exact FirstBest.scan_congr fun b _ => h.validBid b
  rw [hbest, clearScan_eq]
  cases FirstBest.scan (fun u v : I128 => r.terms.rule.Better u.toInt v.toInt)
      (fun b => (R.read s b).bind SealedRecord.validBid) r.bidders with
  | none => rfl
  | some p => exact ⟨p.2, rfl, rfl⟩

end Loops

end SubRosa
