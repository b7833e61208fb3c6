import SubRosa.Auction.Enabled

/-!
# What a round owes

The transfers a live round still has to make leave it in one call: settling,
clearing without a valid bid, or voiding. A round for which that call is due
can do nothing else, except being opened too late.
-/

namespace SubRosa

open MachineInt TokenLedger

/-- The transfers a live round still owes. -/
def SealedRound.outgoing (contract : Address) (r : SealedRound) : List Transfer :=
  match r.status, r.winner with
  | .Cleared, some w => r.payouts contract w
  | _, _ => r.refunds contract

/-- What a live round still owes to one bidder: the escrow, less the bid of the
winner. -/
def SealedRound.due (r : SealedRound) (b : Address) : Int :=
  if r.status = .Cleared ∧ r.winner = some b then r.escrowOf b - r.winningBid else r.escrowOf b

/-- Cleared, or about to be voided by a call at time `t`. -/
def SealedRound.Payable (r : SealedRound) (t : Nat) : Prop :=
  r.status = .Cleared ∨
  (r.status = .Revealing ∧ r.terms.revealDeadline < t ∧ r.terms.payment.isSome = true ∧
    r.best = none) ∨
  (r.status = .Open ∧ r.terms.revealDeadline + 3600 < t)

/-- The call that pays a round out. -/
def RoundKey.payout (key : RoundKey) : Status → Call
  | .Open => key.void
  | .Revealing => key.clear
  | _ => key.settle

section

variable {host : Host} {config : GlobalConfig} {now t : Nat} {r r' : SealedRound}

theorem SealedRound.paidBy_pay {b : Address} {contract : Address} (hb : b ≠ contract) (n : Int) :
    PaidBy contract (r.pay contract b n) := by
  intro u hu
  unfold SealedRound.pay at hu
  split at hu
  · split at hu
    · next hpos =>
      obtain rfl := List.mem_singleton.mp hu
      exact ⟨rfl, hb, hpos.le⟩
    · cases hu
  · cases hu

theorem SealedRound.Sound.paidBy_lotTo (h : r.Sound host config now) {b : Address}
    (hb : b ≠ host.currentContract) :
    PaidBy host.currentContract (r.lotTo host.currentContract b) := by
  intro u hu
  unfold SealedRound.lotTo at hu
  split at hu
  · next asset amount hlot =>
    obtain rfl := List.mem_singleton.mp hu
    exact ⟨rfl, hb, (h.lot asset amount hlot).le⟩
  · cases hu

theorem SealedRound.Sound.paidBy_refunds (h : r.Sound host config now) :
    PaidBy host.currentContract (r.refunds host.currentContract) := by
  intro u hu
  rcases List.mem_append.mp hu with hu | hu
  · obtain ⟨b, hb, hu⟩ := List.mem_flatMap.mp hu
    exact SealedRound.paidBy_pay (h.outsiders b hb) _ u hu
  · exact h.paidBy_lotTo h.operator u hu

theorem SealedRound.Sound.paidBy_payouts (h : r.Sound host config now) (hs : r.status = .Cleared)
    {w : Address} (hw : r.winner = some w) :
    PaidBy host.currentContract (r.payouts host.currentContract w) := by
  obtain ⟨hp, w', hw', hbest⟩ := h.cleared hs
  obtain rfl : w' = w := Option.some_inj.mp (hw'.symm.trans hw)
  obtain ⟨hmem, hpos, -⟩ := h.winner_covered hp hbest
  intro u hu
  rcases List.mem_append.mp hu with hu | hu
  · obtain ⟨b, hb, hu⟩ := List.mem_flatMap.mp hu
    unfold SealedRound.payoutOf at hu
    split at hu
    · split at hu
      · rcases List.mem_cons.mp hu with rfl | hu
        · exact ⟨rfl, h.operator, hpos.le⟩
        · exact SealedRound.paidBy_pay (h.outsiders b hb) _ u hu
      · exact SealedRound.paidBy_pay (h.outsiders b hb) _ u hu
    · cases hu
  · exact h.paidBy_lotTo (h.outsiders _ hmem) u hu

theorem SealedRound.Sound.paidBy_outgoing (h : r.Sound host config now) :
    PaidBy host.currentContract (r.outgoing host.currentContract) := by
  unfold SealedRound.outgoing
  split
  · next hs hw => exact h.paidBy_payouts hs hw
  · exact h.paidBy_refunds

theorem SealedRound.outgoing_refunds (contract : Address) (h : r.status ≠ .Cleared) :
    r.outgoing contract = r.refunds contract := by
  unfold SealedRound.outgoing
  split
  · next hs _ => exact absurd hs h
  · rfl

theorem SealedRound.outgoing_payouts (contract : Address) (h : r.status = .Cleared) {w : Address}
    (hw : r.winner = some w) : r.outgoing contract = r.payouts contract w := by
  simp [SealedRound.outgoing, h, hw]

/-- Nothing is opened before the reveal, so nothing competes. -/
theorem SealedRound.Sound.best_none (h : r.Sound host config now) (hs : r.status = .Open) :
    r.best = none := by
  apply FirstBest.scan_eq_none.mpr
  intro b _
  unfold SealedRound.validBid
  cases he : r.entry b with
  | none => rfl
  | some e =>
    have hvalid := ((h.entries b e he).unopened (h.unopened hs b e he)).2
    simp [Entry.validBid, hvalid]

/-- The round can be paid out by its call. -/
theorem SealedRound.Payable.step (hpay : r.Payable t) (h : r.Sound host config t)
    (key : RoundKey) :
    ∃ action r', (key.payout r.status).action = some action ∧
      Transition host t r action (r.outgoing host.currentContract) r' := by
  rcases hpay with hs | ⟨hs, ht, hp, hbest⟩ | ⟨hs, ht⟩
  · obtain ⟨hp, w, hw, -⟩ := h.cleared hs
    refine ⟨.settle, r.close .Settled, by cases key <;> simp [RoundKey.payout, hs] <;> rfl, ?_⟩
    rw [SealedRound.outgoing_payouts _ hs hw]
    exact Transition.settle w hs hw hp
  · refine ⟨.clear, r.voided, by cases key <;> simp [RoundKey.payout, hs] <;> rfl, ?_⟩
    rw [SealedRound.outgoing_refunds _ (by simp [hs])]
    exact Transition.clearVoid hs ht hp hbest
  · refine ⟨.void, r.voided, by cases key <;> simp [RoundKey.payout, hs] <;> rfl, ?_⟩
    rw [SealedRound.outgoing_refunds _ (by simp [hs])]
    exact Transition.void hs ht

/-- **All a payable round can do.** It is opened too late, or it pays everything. -/
theorem SealedRound.Payable.inversion (hpay : r.Payable t) (h : r.Sound host config t)
    {action : Action} {ts : List Transfer}
    (hstep : Transition host t r action ts r') :
    (action = .opening ∧ r.status = .Open ∧ ts = [] ∧ r' = r.withStatus .Revealing) ∨
    (ts = r.outgoing host.currentContract ∧ ¬ r'.Live) := by
  have hdead := h.beforeDrand
  have hdead' := h.afterDrand
  have hvoided : ¬ r.voided.Live := by
    unfold SealedRound.voided
    split <;> simp [SealedRound.close, SealedRound.withStatus, SealedRound.Live]
  rcases hpay with hs | ⟨hs, ht, hp, hbest⟩ | ⟨hs, ht⟩
  · cases hstep with
    | settle w _ hw =>
      exact Or.inr ⟨(SealedRound.outgoing_payouts _ hs hw).symm, by
        simp [SealedRound.close, SealedRound.Live]⟩
    | commit _ _ _ hs' => simp [hs] at hs'
    | opening hs' => simp [hs] at hs'
    | reveal _ _ _ _ hs' => simp [hs] at hs'
    | clear _ _ hs' => simp [hs] at hs'
    | clearVoid hs' => simp [hs] at hs'
    | finalize hs' => simp [hs] at hs'
    | void hs' => simp [hs] at hs'
  · cases hstep with
    | clearVoid _ _ _ _ =>
      exact Or.inr ⟨(SealedRound.outgoing_refunds _ (by simp [hs])).symm, hvoided⟩
    | clear _ _ _ _ _ hbest' => simp [hbest] at hbest'
    | finalize _ _ hp' => simp [hp'] at hp
    | reveal _ _ _ _ _ ht' => omega
    | commit _ _ _ hs' => simp [hs] at hs'
    | opening hs' => simp [hs] at hs'
    | settle _ hs' => simp [hs] at hs'
    | void hs' => simp [hs] at hs'
  · cases hstep with
    | void =>
      exact Or.inr ⟨(SealedRound.outgoing_refunds _ (by simp [hs])).symm, hvoided⟩
    | opening => exact Or.inl ⟨rfl, hs, rfl, rfl⟩
    | commit _ _ _ _ ht' => omega
    | reveal _ _ _ _ hs' => simp [hs] at hs'
    | clear _ _ hs' => simp [hs] at hs'
    | clearVoid hs' => simp [hs] at hs'
    | finalize hs' => simp [hs] at hs'
    | settle _ hs' => simp [hs] at hs'

/-- Only a round with a payment asset owes anything. -/
theorem SealedRound.Sound.pays_of_outgoing (h : r.Sound host config now) {u : Transfer}
    (hu : u ∈ r.outgoing host.currentContract) : r.terms.payment.isSome = true := by
  by_cases hs : r.status = .Cleared
  · exact (h.cleared hs).1
  · rw [SealedRound.outgoing_refunds _ hs] at hu
    by_contra hp
    have hp : r.terms.payment = none := by simpa using hp
    simp [SealedRound.refunds, SealedRound.pay, SealedRound.lotTo, hp, h.auction hp] at hu

theorem SealedRound.pay_mem {asset b : Address} {n : Int} (hp : r.terms.payment = some asset)
    (hn : 0 < n) (contract : Address) :
    (⟨asset, contract, b, n⟩ : Transfer) ∈ r.pay contract b n := by
  simp [SealedRound.pay, hp, hn]

/-- Whatever is due to a bidder is among the outgoing transfers. -/
theorem SealedRound.Sound.due_mem (h : r.Sound host config now) {asset : Address}
    (hp : r.terms.payment = some asset) {b : Address} (hb : b ∈ r.bidders) (hdue : 0 < r.due b) :
    (⟨asset, host.currentContract, b, r.due b⟩ : Transfer) ∈ r.outgoing host.currentContract := by
  by_cases hs : r.status = .Cleared
  · obtain ⟨-, w, hw, -⟩ := h.cleared hs
    rw [SealedRound.outgoing_payouts _ hs hw]
    refine List.mem_append_left _ (List.mem_flatMap.mpr ⟨b, hb, ?_⟩)
    by_cases hbw : b = w
    · subst hbw
      have hval : r.due b = r.escrowOf b - r.winningBid := by simp [SealedRound.due, hs, hw]
      rw [hval] at hdue ⊢
      simp only [SealedRound.payoutOf, hp, if_true]
      exact List.mem_cons_of_mem _ (SealedRound.pay_mem hp hdue _)
    · have hval : r.due b = r.escrowOf b := by simp [SealedRound.due, hs, hw, Ne.symm hbw]
      rw [hval] at hdue ⊢
      simp only [SealedRound.payoutOf, hp, if_neg hbw]
      exact SealedRound.pay_mem hp hdue _
  · have hval : r.due b = r.escrowOf b := by simp [SealedRound.due, hs]
    rw [SealedRound.outgoing_refunds _ hs]
    rw [hval] at hdue ⊢
    exact List.mem_append_left _ (List.mem_flatMap.mpr ⟨b, hb, SealedRound.pay_mem hp hdue _⟩)

end

end SubRosa
