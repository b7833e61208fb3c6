import SubRosa.Guarantees.Custody

/-!
# Payouts

Over its whole life a round moves exactly the sale or nothing, and nothing
after it has ended. A payout is all or nothing: one call pays everybody, and
while one of its transfers is refused no sequence of calls pays anybody.
-/

namespace SubRosa

open MachineInt TokenLedger

section

variable {host : Host} {config : GlobalConfig}

/-! ## Exact payouts -/

theorem Transition.live {t : Nat} {r r' : SealedRound} {action : Action} {ts : List Transfer}
    (h : Transition host t r action ts r') : r.Live := by
  cases h with
  | commit _ _ _ hs => exact Or.inl hs
  | opening hs => exact Or.inl hs
  | reveal _ _ _ _ hs => exact Or.inr (Or.inl hs)
  | clear _ _ hs => exact Or.inr (Or.inl hs)
  | clearVoid hs => exact Or.inr (Or.inl hs)
  | finalize hs => exact Or.inr (Or.inl hs)
  | settle _ hs => exact Or.inr (Or.inr hs)
  | void hs => exact Or.inl hs

theorem roundLedger_snoc (key : RoundKey) (events : List Event) (e : Event) :
    roundLedger key (events ++ [e]) = roundLedger key events ++ e.movedFor key := by
  simp [roundLedger]

/-- A round that has ended stays as it is and moves nothing. -/
theorem Run.ended {c c' : Chain} {events : List Event} (h : Run host c events c')
    (hs : c.Sound host config) {key : RoundKey} {r : SealedRound}
    (hr : c.world.view key = some r) (hend : ¬ r.Live) :
    c'.world.view key = some r ∧ roundLedger key events = [] := by
  induction h with
  | nil => exact ⟨hr, rfl⟩
  | @snoc events d e d' hrun hstep ih =>
    obtain ⟨hview, hnone⟩ := ih
    have hmoves := Step.moves hstep (Run.sound hrun hs) key
    rw [hview] at hmoves
    rw [roundLedger_snoc, hnone]
    generalize hts : e.movedFor key = ts at hmoves
    generalize ho : d'.world.view key = o at hmoves
    cases hmoves with
    | idle => exact ⟨rfl, rfl⟩
    | stepped _ _ _ htrans => exact absurd htrans.live hend

/-- What one account gets in one asset from the sale to `w`, the roles added up. -/
def SealedRound.saleNet (r : SealedRound) (w a x : Address) : Int :=
  (if r.terms.payment = some a then
    (if x = r.terms.operator then r.winningBid else 0) - (if x = w then r.winningBid else 0)
  else 0) +
  (match r.terms.lot with
    | some (lot, amount) =>
        if lot = a then (if x = w then amount else 0) - (if x = r.terms.operator then amount else 0)
        else 0
    | none => 0)

theorem SealedRound.net_sale {r : SealedRound} (hp : r.terms.payment.isSome = true)
    (w a x : Address) : net (r.sale w) a x = r.saleNet w a x := by
  obtain ⟨asset, ha⟩ := Option.isSome_iff_exists.mp hp
  unfold SealedRound.sale SealedRound.saleNet
  rw [ha]
  cases r.terms.lot with
  | none => simp [Transfer.flow, eq_comm]
  | some lot => simp [Transfer.flow, eq_comm]

/-- **Exact payouts.** -/
theorem payouts_exact {c₀ c : Chain} {events : List Event} (hd : Deployed config c₀)
    (h : Run host c₀ events c) {key : RoundKey} {r : SealedRound}
    (hr : c.world.view key = some r) (hauction : c.world.Auction key) :
    (r.status = .Settled → ∃ w, r.winner = some w ∧ w ∈ r.bidders ∧
      ∀ a x, net (roundLedger key events) a x = r.saleNet w a x) ∧
    (r.status = .Voided → ∀ a x, net (roundLedger key events) a x = 0) ∧
    (r.status = .Settled ∨ r.status = .Voided → ∀ events' c', Run host c events' c' →
      roundLedger key events' = []) := by
  have hs := h.sound hd.chain_sound
  have hp := (hs.world.auction_iff hr).mp hauction
  have hstart : c₀.world.view key = none := by
    cases key <;> simp [World.view, hd.1, Store.empty]
  have hnet : ∀ a x, net (roundLedger key events) a x =
      net (r.position host.currentContract) a x := by
    intro a x
    rw [h.accounts hd.chain_sound key a x, hr, hstart]
    simp [positionOf]
  refine ⟨fun hset => ?_, fun hvoid a x => ?_, fun hend events' c' h' => ?_⟩
  · obtain ⟨asset, ha⟩ := Option.isSome_iff_exists.mp hp
    have hwin := (hs.world.views key r hr).settled hset |>.2
    rw [ha] at hwin
    obtain ⟨w, hw, hbest⟩ := hwin
    refine ⟨w, hw, ((hs.world.views key r hr).winner_covered hp hbest).1, fun a x => ?_⟩
    rw [hnet, ← SealedRound.net_sale hp]
    simp [SealedRound.position, hset, hw]
  · rw [hnet]
    simp [SealedRound.position, hvoid]
  · refine (Run.ended h' hs hr ?_).2
    rcases hend with hend | hend <;> simp [SealedRound.Live, hend]

/-- The sample auction is settled, so it moved exactly the sale. -/
theorem payouts_exact_sample : ∃ c events r, Run Sample.host Sample.deployed events c ∧
    c.world.view (.v1 1) = some r ∧ r.status = .Settled ∧ ∃ w, r.winner = some w ∧
      ∀ a x, net (roundLedger (.v1 1) events) a x = r.saleNet w a x := by
  obtain ⟨c, events, hrun, hstatus⟩ := Chain.exec_reaches Sample.host
    Sample.deployed Sample.settled
    (fun c _ => (c.world.view (.v1 1)).map SealedRound.status) (some .Settled)
    (by decide +kernel)
  obtain ⟨r, hr, hset⟩ := Option.map_eq_some_iff.mp hstatus
  have hs := hrun.sound Sample.deployed_ok.chain_sound
  have hauction : c.world.Auction (.v1 1) := (hs.world.of_view_v1 hr).imp fun _ h => h.1
  obtain ⟨w, hw, -, hnet⟩ := (payouts_exact Sample.deployed_ok hrun hr hauction).1 hset
  exact ⟨c, events, r, hrun, hr, hset, w, hw, hnet⟩

/-! ## One call pays everybody -/

/-- The payout call succeeds when the outgoing transfers are accepted. -/
theorem Chain.Funded.pays_out {c : Chain} (hf : c.Funded host) (hs : c.Sound host config)
    {key : RoundKey} {r : SealedRound} (hr : c.world.view key = some r)
    {tx : Transaction} (hnow : c.now ≤ tx.timestamp)
    (hself : tx.auths host.currentContract = false) (hpay : r.Payable tx.timestamp.toNat)
    (hacc : ∀ u ∈ r.outgoing host.currentContract, tx.accepts u = true) :
    ∃ o r', invoke host tx (key.payout r.status) c.world = .ok o ∧
      o.transfers = r.outgoing host.currentContract ∧ o.world.view key = some r' ∧ ¬ r'.Live := by
  have hle := UInt64.le_iff_toNat_le.mp hnow
  have hw := hs.world.later hle
  have hsound := hw.views key r hr
  obtain ⟨action, r', haction, hstep⟩ := hpay.step hsound key
  obtain ⟨b, hb⟩ := hf.pays hs hr hle hstep hsound.paidBy_outgoing hacc
  have hcall : ∃ o, invoke host tx (key.payout r.status) c.world = .ok o := by
    rcases hpay with hst | ⟨hst, ht, -⟩ | ⟨hst, ht⟩
    · obtain ⟨-, w, hwin, -⟩ := hsound.cleared hst
      rw [SealedRound.outgoing_payouts _ hst hwin] at hb
      rw [hst]
      exact hw.can_settle hr hst hwin hb
    · rw [SealedRound.outgoing_refunds _ (by simp [hst])] at hb
      rw [hst]
      exact (hw.can_clear hr hst ht fun _ _ => ⟨b, hb⟩).imp fun _ h => h.1
    · rw [SealedRound.outgoing_refunds _ (by simp [hst])] at hb
      rw [hst]
      exact hw.can_void hr hst ht hb
  obtain ⟨o, ho⟩ := hcall
  have hkey : (key.payout r.status).key o.value = some key := by
    cases key <;> cases r.status <;> rfl
  obtain ⟨q, q', hq, hq', htrans⟩ := hw.invoke_step hself ho hkey haction
  obtain rfl : r = q := Option.some_inj.mp (hr.symm.trans hq)
  rcases hpay.inversion hsound htrans with ⟨hopening, -⟩ | ⟨hts, hend⟩
  · subst hopening
    cases key <;> cases hst : r.status <;> rw [hst] at haction <;> cases haction
  · exact ⟨o, q', ho, hts, hq', hend⟩

/-! ## One refused transfer stops everybody -/

/-- The transfers of a successful call were all accepted. -/
theorem Step.accepted {c c' : Chain} {tx : Transaction} {call : Call} {value : Value}
    {ts : List Transfer} (h : Step host c (.called tx call value ts) c')
    (hs : c.Sound host config) : ∀ u ∈ ts, tx.accepts u = true := by
  cases h with
  | called hnow hself hcall =>
    have hpaid := invoke_paid (hs.world.later (UInt64.le_iff_toNat_le.mp hnow)) hself hcall
    exact fun u hu => (transferAll?_accepted hpaid u hu).1

/-- While every call meets a refused transfer of the round, it moves nothing
and goes on owing the same. -/
theorem Run.stuck {c c' : Chain} {events : List Event} (h : Run host c events c')
    (hs : c.Sound host config) {key : RoundKey} {r : SealedRound}
    (hr : c.world.view key = some r) (hpay : r.Payable c.now.toNat)
    (hrefused : ∀ tx call value ts, Event.called tx call value ts ∈ events →
      ∃ u ∈ r.outgoing host.currentContract, tx.accepts u = false) :
    roundLedger key events = [] ∧ ∃ r', c'.world.view key = some r' ∧
      r'.Payable c'.now.toNat ∧
      r'.outgoing host.currentContract = r.outgoing host.currentContract := by
  induction h with
  | nil => exact ⟨rfl, r, hr, hpay, rfl⟩
  | @snoc events d e d' hrun hstep ih =>
    obtain ⟨hnone, q, hq, hqpay, hout⟩ := ih fun tx call value ts hmem =>
      hrefused tx call value ts (List.mem_append_left _ hmem)
    have hd := Run.sound hrun hs
    have hle := UInt64.le_iff_toNat_le.mp (Step.now_le hstep)
    have hsound := (hd.world.later hle).views key q hq
    have hqpay : q.Payable d'.now.toNat :=
      hqpay.imp_right (Or.imp (fun h => ⟨h.1, lt_of_lt_of_le h.2.1 hle, h.2.2⟩)
        (fun h => ⟨h.1, lt_of_lt_of_le h.2 hle⟩))
    have hmoves := Step.moves hstep hd key
    rw [hq] at hmoves
    rw [roundLedger_snoc, hnone]
    generalize hts : e.movedFor key = ts at hmoves
    generalize ho : d'.world.view key = o at hmoves
    cases hmoves with
    | idle => exact ⟨rfl, q, rfl, hqpay, hout⟩
    | @stepped tx call value action _ q' _ htime hkey haction htrans =>
      obtain ⟨u, hu, hno⟩ := hrefused tx call value _
        (List.mem_append_right _ (List.mem_singleton_self _))
      rw [← hout] at hu
      rcases hqpay.inversion hsound htrans with ⟨-, hst, rfl, rfl⟩ | ⟨rfl, -⟩
      · refine ⟨rfl, _, rfl, Or.inr (Or.inl ⟨rfl, ?_, hsound.pays_of_outgoing hu,
          hsound.best_none hst⟩), ?_⟩
        · rcases hqpay with h | ⟨h, -⟩ | ⟨-, h⟩
          · simp [hst] at h
          · simp [hst] at h
          · show q.terms.revealDeadline < d'.now.toNat
            omega
        · have hcleared : q.status ≠ .Cleared := by simp [hst]
          have hcleared' : (q.withStatus .Revealing).status ≠ .Cleared := nofun
          rw [← hout, SealedRound.outgoing_refunds _ hcleared,
            SealedRound.outgoing_refunds _ hcleared']
          rfl
      · rw [Step.accepted hstep hd u hu] at hno
        cases hno

/-- **All or nothing.** -/
theorem payouts_all_or_nothing {c₀ c : Chain} {events : List Event} (hd : Deployed config c₀)
    (h : Run host c₀ events c) {key : RoundKey} {r : SealedRound}
    (hr : c.world.view key = some r) {t : UInt64} (hnow : c.now ≤ t)
    (hpay : r.Payable t.toNat) :
    (∀ tx : Transaction, tx.timestamp = t → tx.auths host.currentContract = false →
      (∀ u ∈ r.outgoing host.currentContract, tx.accepts u = true) →
      ∃ o, invoke host tx (key.payout r.status) c.world = .ok o ∧
        o.transfers = r.outgoing host.currentContract ∧
        ∀ asset, r.terms.payment = some asset → ∀ b ∈ r.bidders, 0 < r.due b →
          ⟨asset, host.currentContract, b, r.due b⟩ ∈ o.transfers) ∧
    (∀ events' c', Run host ⟨c.world, t⟩ events' c' →
      (∀ tx call value ts, Event.called tx call value ts ∈ events' →
        ∃ u ∈ r.outgoing host.currentContract, tx.accepts u = false) →
      roundLedger key events' = [] ∧ ∃ r', c'.world.view key = some r' ∧
        r'.outgoing host.currentContract = r.outgoing host.currentContract) := by
  have hs := h.sound hd.chain_sound
  have hf := h.funded hd
  have hlater : Chain.Sound host config ⟨c.world, t⟩ :=
    ⟨hs.world.later (UInt64.le_iff_toNat_le.mp hnow), hs.funds⟩
  constructor
  · rintro tx rfl hself hacc
    obtain ⟨o, -, ho, hts, -⟩ := hf.pays_out hs hr hnow hself hpay hacc
    refine ⟨o, ho, hts, fun asset ha b hb hdue => ?_⟩
    rw [hts]
    exact (hs.world.views key r hr).due_mem ha hb hdue
  · intro events' c' hrun hrefused
    obtain ⟨hnone, r', hr', -, hout⟩ := Run.stuck hrun hlater hr hpay hrefused
    exact ⟨hnone, r', hr', hout⟩

/-- The sample auction can be settled at once. -/
theorem payouts_all_or_nothing_sample : ∃ c events r o,
    Run Sample.host Sample.deployed events c ∧ c.world.view (.v1 1) = some r ∧
    invoke Sample.host (Sample.tx Sample.bob 2000) (.settle 1) c.world = .ok o ∧
    o.transfers = r.outgoing Sample.host.currentContract := by
  obtain ⟨c, events, hrun, hstate⟩ := Chain.exec_reaches Sample.host
    Sample.deployed Sample.cleared
    (fun c _ => ((c.world.view (.v1 1)).map SealedRound.status, decide (c.now ≤ 2000)))
    ((some .Cleared, true)) (by decide +kernel)
  obtain ⟨hstatus, hnow⟩ := Prod.mk.inj hstate
  obtain ⟨r, hr, hcleared⟩ := Option.map_eq_some_iff.mp hstatus
  obtain ⟨o, ho, hts, -⟩ := (payouts_all_or_nothing Sample.deployed_ok hrun hr
    (of_decide_eq_true hnow) (Or.inl hcleared)).1 (Sample.tx Sample.bob 2000) rfl rfl
    fun _ _ => rfl
  rw [hcleared] at ho
  exact ⟨c, events, r, o, hrun, hr, ho, hts⟩

/-- Bob lost and is owed 50, but while the operator refuses the winning bid
no continuation gives him anything. -/
theorem payouts_not_isolated : ∃ c events r, Run Sample.host Sample.deployed events c ∧
    c.world.view (.v1 1) = some r ∧ r.status = .Cleared ∧ r.winner = some Sample.alice ∧
    Sample.bob ∈ r.bidders ∧ r.due Sample.bob = 50 ∧
    ∀ events' c', Run Sample.host c events' c' →
      (∀ tx call value ts, Event.called tx call value ts ∈ events' →
        tx.accepts = fun u => decide (u.target ≠ Sample.operator)) →
      roundLedger (.v1 1) events' = [] := by
  obtain ⟨c, events, hrun, hstate⟩ := Chain.exec_reaches Sample.host
    Sample.deployed Sample.cleared
    (fun c _ => (c.world.view (.v1 1)).map fun r : SealedRound =>
      (r.status, r.winner, decide (Sample.bob ∈ r.bidders), r.due Sample.bob,
        (r.outgoing Sample.host.currentContract).any fun u =>
          decide (u.target = Sample.operator)))
    (some (Status.Cleared, some Sample.alice, true, 50, true)) (by decide +kernel)
  obtain ⟨r, hr, hvalue⟩ := Option.map_eq_some_iff.mp hstate
  simp only [Prod.mk.injEq, decide_eq_true_eq, List.any_eq_true] at hvalue
  obtain ⟨hst, hwin, hbob, hdue, u, hu, htarget⟩ := hvalue
  refine ⟨c, events, r, hrun, hr, hst, hwin, hbob, hdue, fun events' c' hrun' hrefuses => ?_⟩
  have hs := hrun.sound Sample.deployed_ok.chain_sound
  refine (Run.stuck hrun' hs hr (Or.inl hst) fun tx call value ts hmem => ⟨u, hu, ?_⟩).1
  rw [hrefuses tx call value ts hmem]
  simp [htarget]

end

end SubRosa
