import SubRosa.Auction.Invariant

/-!
# Accounts of a sealed round

Every step moves exactly what its change of `position` says: the transfers of
the step and the positions before and after agree for every asset and every
account, whoever operator, bidders and winner are. Over a run this makes the
round's ledger telescope.
-/

namespace SubRosa

open MachineInt TokenLedger

/-! ## Sums over a duplicate-free list -/

theorem net_flatMap {α : Type} (l : List α) (f : α → List Transfer) (a x : Address) :
    net (l.flatMap f) a x = (l.map fun b => net (f b) a x).sum := by
  induction l with
  | nil => simp
  | cons b l ih => simp [ih]

theorem sum_map_neg {α : Type} (l : List α) (f : α → Int) :
    (l.map fun b => -f b).sum = -(l.map f).sum := by
  rw [List.sum_neg, List.map_map]
  rfl

/-- Changing one summand of a duplicate-free list. -/
theorem sum_map_update {α : Type} [DecidableEq α] {l : List α} (hl : l.Nodup) {b : α} (hb : b ∈ l)
    {f g : α → Int} (h : ∀ c ∈ l, c ≠ b → f c = g c) :
    (l.map f).sum = (l.map g).sum + (f b - g b) := by
  induction l with
  | nil => simp at hb
  | cons c l ih =>
    obtain ⟨hc, hl⟩ := List.nodup_cons.mp hl
    simp only [List.map_cons, List.sum_cons]
    rcases List.mem_cons.mp hb with rfl | hb
    · have heq : l.map f = l.map g := List.map_congr_left fun d hd =>
        h d (by simp [hd]) (by rintro rfl; exact hc hd)
      rw [heq]
      omega
    · have hne : c ≠ b := by rintro rfl; exact hc hb
      rw [h c (by simp) hne, ih hl hb fun d hd => h d (by simp [hd])]
      omega

namespace SealedRound

section Flows

variable (contract : Address) (r : SealedRound)

/-- Paying out and taking in the same amount cancel, also when it is zero. -/
theorem net_pay {n : Int} (hn : 0 ≤ n) (b a x : Address) :
    net (r.pay contract b n) a x = -net (r.lock contract b n) a x := by
  unfold pay lock
  split
  · simp only [net_cons, net_nil, Transfer.flow]
    split
    · simp only [net_cons, net_nil, Transfer.flow]
      split_ifs <;> omega
    · obtain rfl : n = 0 := by omega
      simp
  · rfl

theorem net_lotTo (b a x : Address) :
    net (r.lotTo contract b) a x = -net (r.lotFrom contract b) a x := by
  unfold lotTo lotFrom
  split
  · simp only [net_cons, net_nil, Transfer.flow]
    split_ifs <;> omega
  · rfl

theorem lock_zero_of_none (hp : r.terms.payment = none) (b : Address) (n : Int) :
    r.lock contract b n = [] := by
  unfold lock
  rw [hp]

/-- The custody of a round in one asset, seen from one account. -/
theorem net_custody (a x : Address) :
    net (r.custody contract) a x =
      (r.bidders.map fun b => net (r.lock contract b (r.escrowOf b)) a x).sum +
        net (r.lotFrom contract r.terms.operator) a x := by
  rw [custody, net_append, net_flatMap]

/-- What settlement does because of one bidder: the escrow comes back, and for
the winner the bid goes to the operator. -/
theorem net_payoutOf {w b : Address} (hb : 0 ≤ r.escrowOf b)
    (hw : b = w → r.winningBid ≤ r.escrowOf b) (a x : Address) :
    net (r.payoutOf contract w b) a x =
      -net (r.lock contract b (r.escrowOf b)) a x +
        if b = w then net (match r.terms.payment with
          | some asset => [(⟨asset, w, r.terms.operator, r.winningBid⟩ : Transfer)]
          | none => []) a x else 0 := by
  unfold payoutOf
  cases hp : r.terms.payment with
  | none => simp [lock_zero_of_none _ _ hp]
  | some asset =>
    by_cases hbw : b = w
    · have hcover := hw hbw
      subst hbw
      simp only [if_true, net_cons, net_nil]
      rw [net_pay contract r (by omega)]
      simp only [lock, hp, net_cons, net_nil, Transfer.flow]
      split_ifs <;> omega
    · simp only [if_neg hbw]
      rw [net_pay contract r hb]
      omega

end Flows

section Steps

variable {host : Host} {config : GlobalConfig} {t : Nat} {r : SealedRound}

theorem position_of_live (contract : Address) (h : r.Live) :
    r.position contract = r.custody contract := by
  unfold position
  rcases h with h | h | h <;> rw [h]

theorem escrowOf_enter_self (b : Address) (e : Entry) : (r.enter b e).escrowOf b = e.escrow := by
  simp [escrowOf, enter]

theorem escrowOf_enter_other {b c : Address} (e : Entry) (hc : c ≠ b) :
    (r.enter b e).escrowOf c = r.escrowOf c := by
  simp [escrowOf, enter, Function.update_of_ne hc]

/-- Entering changes the custody by the new escrow less the old one. -/
theorem net_custody_enter (h : r.Sound host config t) (b : Address) (e : Entry)
    (contract a x : Address) :
    net ((r.enter b e).custody contract) a x = net (r.custody contract) a x +
      net (r.lock contract b e.escrow) a x - net (r.lock contract b (r.escrowOf b)) a x := by
  rw [net_custody, net_custody]
  show (List.map (fun c => net (r.lock contract c ((r.enter b e).escrowOf c)) a x)
      (if b ∈ r.bidders then r.bidders else r.bidders ++ [b])).sum + _ = _
  have hlot : net ((r.enter b e).lotFrom contract (r.enter b e).terms.operator) a x =
      net (r.lotFrom contract r.terms.operator) a x := rfl
  rw [hlot]
  split
  · next hb =>
    rw [sum_map_update h.nodup hb fun c _ hc => by rw [escrowOf_enter_other e hc],
      escrowOf_enter_self]
    omega
  · next hb =>
    have hnone : r.entry b = none := by
      have hiff := h.entered b
      simpa [hb] using hiff
    have hzero : net (r.lock contract b (r.escrowOf b)) a x = 0 := by
      rw [← neg_eq_zero, ← net_pay contract r (by simp [escrowOf, hnone])]
      simp [escrowOf, hnone, pay]
      split <;> rfl
    have hsame : List.map (fun c => net (r.lock contract c ((r.enter b e).escrowOf c)) a x)
        r.bidders = List.map (fun c => net (r.lock contract c (r.escrowOf c)) a x) r.bidders :=
      List.map_congr_left fun c hc => by
        rw [escrowOf_enter_other e (by rintro rfl; exact hb hc)]
    rw [List.map_append, List.sum_append, hsame, hzero]
    simp only [List.map_cons, List.map_nil, List.sum_cons, List.sum_nil, escrowOf_enter_self]
    omega

/-- Refunding everybody and returning the lot undoes the custody. -/
theorem net_refunds (h : r.Sound host config t) (contract a x : Address) :
    net (r.refunds contract) a x = -net (r.custody contract) a x := by
  rw [net_custody, refunds, net_append, net_flatMap, net_lotTo]
  have hflip : r.bidders.map (fun b => net (r.pay contract b (r.escrowOf b)) a x) =
      r.bidders.map fun b => -net (r.lock contract b (r.escrowOf b)) a x :=
    List.map_congr_left fun b _ => net_pay contract r (h.escrowOf_nonneg b) b a x
  rw [hflip, sum_map_neg]
  omega

/-- Settling turns the custody into the sale. -/
theorem net_payouts (h : r.Sound host config t) (hp : r.terms.payment.isSome = true)
    {w : Address} (hb : r.best = some (w, r.winningBid)) (contract a x : Address) :
    net (r.payouts contract w) a x = net (r.sale w) a x - net (r.custody contract) a x := by
  obtain ⟨asset, ha⟩ := Option.isSome_iff_exists.mp hp
  obtain ⟨hmem, -, hcover⟩ := h.winner_covered hp hb
  rw [net_custody, payouts, net_append, net_flatMap, net_lotTo]
  have hsplit : r.bidders.map (fun b => net (r.payoutOf contract w b) a x) =
      r.bidders.map fun b => -net (r.lock contract b (r.escrowOf b)) a x +
        if b = w then net [(⟨asset, w, r.terms.operator, r.winningBid⟩ : Transfer)] a x else 0 :=
    List.map_congr_left fun b _ => by
      rw [net_payoutOf contract r (h.escrowOf_nonneg b) (by rintro rfl; exact hcover), ha]
  have hone : (r.bidders.map fun b =>
      if b = w then net [(⟨asset, w, r.terms.operator, r.winningBid⟩ : Transfer)] a x else 0).sum =
        net [(⟨asset, w, r.terms.operator, r.winningBid⟩ : Transfer)] a x := by
    rw [sum_map_update (g := fun _ => 0) h.nodup hmem fun c _ hc => if_neg hc]
    simp
  have hsale : net (r.sale w) a x =
      net [(⟨asset, w, r.terms.operator, r.winningBid⟩ : Transfer)] a x +
        (net (r.lotFrom contract r.terms.operator) a x - net (r.lotFrom contract w) a x) := by
    unfold sale lotFrom
    rw [ha]
    cases r.terms.lot with
    | none => simp
    | some lot =>
      simp only [net_cons, net_nil, Transfer.flow]
      split_ifs <;> omega
  rw [hsplit, List.sum_map_add, hone, hsale, sum_map_neg]
  omega

/-- Nothing is in the custody of a receipt-only round. -/
theorem net_custody_none (h : r.Sound host config t) (hp : r.terms.payment = none)
    (contract a x : Address) : net (r.custody contract) a x = 0 := by
  rw [net_custody]
  simp [lock_zero_of_none contract r hp, lotFrom, h.auction hp]

theorem position_voided (contract a x : Address) : net (r.voided.position contract) a x = 0 := by
  unfold voided
  split <;> rfl

end Steps

end SealedRound

open SealedRound in
/-- **Accounting of one step.** -/
theorem Transition.accounts {host : Host} {config : GlobalConfig} {t : Nat} {r r' : SealedRound}
    {action : Action} {ts : List Transfer} (step : Transition host t r action ts r')
    (h : r.Sound host config t)
    (a x : Address) :
    net ts a x = net (r'.position host.currentContract) a x -
      net (r.position host.currentContract) a x := by
  cases step with
  | commit b commitment n hs _ _ _ _ =>
    rw [position_of_live _ (Or.inl hs),
      position_of_live (r := r.enter b (Entry.fresh commitment n)) _ (Or.inl hs),
      net_custody_enter h, net_append, net_pay _ _ (h.escrowOf_nonneg b)]
    show _ + net (r.lock host.currentContract b n) a x = _
    simp only [Entry.fresh]
    omega
  | opening hs _ =>
    rw [position_of_live _ (Or.inl hs),
      position_of_live (r := r.withStatus .Revealing) _ (Or.inr (Or.inl rfl))]
    exact (sub_self _).symm
  | reveal b e x' amount hs _ he _ _ _ _ =>
    rw [position_of_live _ (Or.inr (Or.inl hs)),
      position_of_live (r := r.setEntry b _) _ (Or.inr (Or.inl hs)), net_custody, net_custody]
    have hescrow : ∀ c, (r.setEntry b
        { e with opened := some x', amount, valid := r.terms.validates amount }).escrowOf c =
          r.escrowOf c := by
      intro c
      by_cases hc : c = b
      · subst hc
        simp [escrowOf, setEntry, he]
      · simp [escrowOf, setEntry, Function.update_of_ne hc]
    simp only [hescrow]
    exact (sub_self _).symm
  | clear w v hs _ _ _ =>
    rw [position_of_live _ (Or.inr (Or.inl hs)),
      position_of_live (r := { r with winner := some w, winningBid := v, status := .Cleared }) _
        (Or.inr (Or.inr rfl))]
    exact (sub_self _).symm
  | clearVoid hs _ _ _ =>
    rw [net_refunds h, position_voided, position_of_live _ (Or.inr (Or.inl hs)), zero_sub]
  | finalize hs _ hp =>
    have hw := (h.pending (Or.inr (Or.inl hs))).1
    rw [position_of_live _ (Or.inr (Or.inl hs)), net_custody_none h hp]
    simp [position, close, hw]
  | settle w hs hw hp =>
    obtain ⟨-, w', hw', hb⟩ := h.cleared hs
    rw [hw, Option.some_inj] at hw'
    subst hw'
    rw [net_payouts h hp hb, position_of_live _ (Or.inr (Or.inr hs))]
    simp [position, close, hw, sale]
  | void hs _ =>
    rw [net_refunds h, position_voided, position_of_live _ (Or.inl hs), zero_sub]

end SubRosa
