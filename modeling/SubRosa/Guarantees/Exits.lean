import SubRosa.Guarantees.Payouts

/-!
# Exits

From every live state of a round, once the grace after the reveal deadline is
over, one or two calls that anybody can make end the round and let everything
it holds out. The second and third generation always reach such a time; the
first does not when the reveal deadline is too close to the end of time.
-/

namespace SubRosa

open MachineInt Invocation TokenLedger

/-- Nothing the contract pays is refused. -/
def Transaction.Receives (host : Host) (tx : Transaction) : Prop :=
  ∀ u : Transfer, u.source = host.currentContract → tx.accepts u = true

/-- The calls that can end a round. -/
def RoundKey.exits (key : RoundKey) : List (List Call) :=
  [[key.void], [key.clear], [key.clear, key.settle], [key.settle]]

/-- Calls of one transaction end the round: everything it holds leaves the
contract, everybody gets back what they put in, and a settled auction has also
exchanged the winning bid for the lot. -/
def World.Exits (host : Host) (tx : Transaction) (w : World) (key : RoundKey) : Prop :=
  ∃ calls ∈ key.exits, ∃ w' ts r r', invokeAll host tx calls w = some (w', ts) ∧
    w.view key = some r ∧ w'.view key = some r' ∧
    (r'.status = .Settled ∨ r'.status = .Voided) ∧
    (∀ asset, w'.balances asset host.currentContract =
      w.balances asset host.currentContract - r.held asset) ∧
    ∀ asset x, w'.balances asset x = w.balances asset x -
      net (r.custody host.currentContract) asset x +
      net (r'.position host.currentContract) asset x

section

variable {host : Host} {config : GlobalConfig} {c : Chain} {key : RoundKey} {r : SealedRound}
  {tx : Transaction}

theorem SealedRound.ended_status (h : ¬ r.Live) : r.status = .Settled ∨ r.status = .Voided := by
  cases hs : r.status <;> simp [SealedRound.Live, hs] at h ⊢

/-- The balances after a call on a round follow its position. -/
theorem World.Sound.invoke_balance {w : World} (hw : w.Sound host config tx.timestamp.toNat)
    (hself : tx.auths host.currentContract = false) {call : Call} {o : Outcome}
    (h : invoke host tx call w = .ok o) (hkey : call.key o.value = some key) {action : Action}
    (haction : call.action = some action) {r' : SealedRound} (hr : w.view key = some r)
    (hr' : o.world.view key = some r') (asset x : Address) :
    o.world.balances asset x = w.balances asset x +
      net (r'.position host.currentContract) asset x -
      net (r.position host.currentContract) asset x := by
  obtain ⟨q, q', hq, hq', hstep⟩ := hw.invoke_step hself h hkey haction
  obtain rfl : r = q := Option.some_inj.mp (hr.symm.trans hq)
  obtain rfl : r' = q' := Option.some_inj.mp (hr'.symm.trans hq')
  have hbalance := transferAll?_balance (invoke_paid hw hself h) asset x
  have haccounts := hstep.accounts (hw.views key r hr) asset x
  omega

/-- A round whose payout is due ends with one call. -/
theorem Chain.Funded.exits_payable (hf : c.Funded host) (hs : c.Sound host config)
    (hr : c.world.view key = some r) (hnow : c.now ≤ tx.timestamp)
    (hself : tx.auths host.currentContract = false) (hreceives : tx.Receives host)
    (hpay : r.Payable tx.timestamp.toNat) :
    ∃ o r', invoke host tx (key.payout r.status) c.world = .ok o ∧
      o.world.view key = some r' ∧ (r'.status = .Settled ∨ r'.status = .Voided) ∧
      ∀ asset x, o.world.balances asset x = c.world.balances asset x -
        net (r.custody host.currentContract) asset x +
        net (r'.position host.currentContract) asset x := by
  have hw := hs.world.later (UInt64.le_iff_toNat_le.mp hnow)
  have hsound := hw.views key r hr
  obtain ⟨o, r', ho, -, hr', hend⟩ := hf.pays_out hs hr hnow hself hpay
    fun u hu => hreceives u (hsound.paidBy_outgoing u hu).1
  obtain ⟨action, -, haction, -⟩ := hpay.step hsound key
  have hkey : (key.payout r.status).key o.value = some key := by
    cases key <;> cases r.status <;> rfl
  have hlive : r.Live := by
    rcases hpay with hst | ⟨hst, -⟩ | ⟨hst, -⟩ <;> simp [SealedRound.Live, hst]
  refine ⟨o, r', ho, hr', SealedRound.ended_status hend, fun asset x => ?_⟩
  rw [hw.invoke_balance hself ho hkey haction hr hr', SealedRound.position_of_live _ hlive]
  omega

/-- What an ended round gave back and sold tells what left the contract. -/
theorem World.Sound.exits_of_balances {w w' : World} {now : Nat} (hw : w.Sound host config now)
    (hw' : w'.Sound host config now) (hr : w.view key = some r) (hlive : r.Live)
    {r' : SealedRound} (hr' : w'.view key = some r')
    (hend : r'.status = .Settled ∨ r'.status = .Voided)
    (hbalances : ∀ asset x, w'.balances asset x = w.balances asset x -
      net (r.custody host.currentContract) asset x +
      net (r'.position host.currentContract) asset x) {calls : List Call}
    (hcalls : calls ∈ key.exits) {ts : List Transfer}
    (hinvoke : invokeAll host tx calls w = some (w', ts)) : w.Exits host tx key := by
  refine ⟨calls, hcalls, w', ts, r, r', hinvoke, hr, hr', hend, fun asset => ?_, hbalances⟩
  have hdead : ¬ r'.Live := by
    rcases hend with h | h <;> simp [SealedRound.Live, h]
  have hheld : r'.held asset = 0 := by rw [SealedRound.held, if_neg hdead]
  rw [hbalances, (hw'.views key r' hr').net_position, hheld,
    ← SealedRound.position_of_live _ hlive, (hw.views key r hr).net_position]
  omega

/-- **Exit.** A live round can be ended once its deadlines are over. -/
theorem Chain.Funded.exits (hf : c.Funded host) (hs : c.Sound host config)
    (hr : c.world.view key = some r) (hlive : r.Live) (hnow : c.now ≤ tx.timestamp)
    (hself : tx.auths host.currentContract = false) (hreceives : tx.Receives host)
    (hopen : r.status = .Open → r.terms.revealDeadline + 3600 < tx.timestamp.toNat)
    (hrevealing : r.status = .Revealing → r.terms.revealDeadline < tx.timestamp.toNat) :
    c.world.Exits host tx key := by
  have hw := hs.world.later (UInt64.le_iff_toNat_le.mp hnow)
  have hsound := hw.views key r hr
  -- the payout is due, except for a reveal that ends with a winner or without money
  by_cases hpay : r.Payable tx.timestamp.toNat
  · obtain ⟨o, r', ho, hr', hend, hbalances⟩ := hf.exits_payable hs hr hnow hself hreceives hpay
    refine hw.exits_of_balances (invoke_sound hw hself ho) hr hlive hr' hend hbalances ?_
      (invokeAll_one ho)
    rcases hlive with hst | hst | hst <;> simp [RoundKey.exits, RoundKey.payout, hst]
  · have hst : r.status = .Revealing := by
      rcases hlive with hst | hst | hst
      · exact absurd (Or.inr (Or.inr ⟨hst, hopen hst⟩)) hpay
      · exact hst
      · exact absurd (Or.inl hst) hpay
    have ht := hrevealing hst
    have hbest : r.terms.payment.isSome = true → r.best ≠ none :=
      fun hp hbest => hpay (Or.inr (Or.inl ⟨hst, ht, hp, hbest⟩))
    obtain ⟨o, ho, -⟩ := hw.can_clear hr hst ht fun hp hnone => absurd hnone (hbest hp)
    have hkey : key.clear.key o.value = some key := by cases key <;> rfl
    have haction : key.clear.action = some .clear := by cases key <;> rfl
    obtain ⟨q, r', hq, hr', htrans⟩ := hw.invoke_step hself ho hkey haction
    obtain rfl : r = q := Option.some_inj.mp (hr.symm.trans hq)
    have hstep : Step host c (.called tx key.clear o.value o.transfers) ⟨o.world, tx.timestamp⟩ :=
      Step.called hnow hself ho
    have hw' := invoke_sound hw hself ho
    have hbalance := hw.invoke_balance hself ho hkey haction hr hr'
    simp only [SealedRound.position_of_live _ hlive] at hbalance
    generalize hts : o.transfers = ts at htrans
    generalize hact : Action.clear = action at htrans
    cases htrans with
    | clear w v _ _ hp hb =>
      let q : SealedRound := { r with winner := some w, winningBid := v, status := .Cleared }
      have hr' : o.world.view key = some q := hr'
      have hpos : q.position host.currentContract = r.custody host.currentContract := rfl
      obtain ⟨o', r'', ho', hr'', hend, hbalances⟩ := (hstep.funded hs hf).exits_payable
        (hstep.sound hs) hr' (UInt64.le_refl _) hself hreceives (Or.inl rfl)
      refine hw.exits_of_balances (invoke_sound hw' hself ho') hr hlive hr'' hend
        (fun asset x => ?_) ?_ (invokeAll_two ho ho')
      · have hfirst : o.world.balances asset x = _ := hbalance asset x
        have hsecond : o'.world.balances asset x = o.world.balances asset x - _ + _ :=
          hbalances asset x
        have hcustody : q.custody host.currentContract = r.custody host.currentContract := rfl
        rw [hpos] at hfirst
        rw [hcustody] at hsecond
        omega
      · simp [RoundKey.exits, RoundKey.payout]
    | clearVoid _ _ hp hb => exact absurd hb (hbest hp)
    | finalize _ _ hp =>
      refine hw.exits_of_balances hw' hr hlive hr' (Or.inl rfl) (fun asset x => ?_) ?_
        (invokeAll_one ho)
      · have hfirst := hbalance asset x
        omega
      · simp [RoundKey.exits]
    | commit => cases hact
    | opening => cases hact
    | reveal => cases hact
    | settle => cases hact
    | void => cases hact

/-- **No trapped funds.** -/
theorem no_trapped_funds_v2 {c₀ : Chain} {events : List Event} (hd : Deployed config c₀)
    (h : Run host c₀ events c) {id : UInt64} {round : RoundV2}
    (hr : c.world.store.roundV2 id = some round) (hlive : round.status ≠ .Settled)
    (hlive' : round.status ≠ .Voided) (hnow : c.now ≤ tx.timestamp)
    (ht : round.revealDeadline.toNat + 3600 < tx.timestamp.toNat)
    (hself : tx.auths host.currentContract = false) (hreceives : tx.Receives host) :
    c.world.Exits host tx (.v2 id) := by
  have hview : c.world.view (.v2 id) = some (round.view (c.world.store.submissionV2 id)) :=
    World.view_roundV2 hr
  have hlive : (round.view (c.world.store.submissionV2 id)).Live := by
    show round.status = .Open ∨ round.status = .Revealing ∨ round.status = .Cleared
    cases hs : round.status <;> simp [hs] at hlive hlive' ⊢
  exact (h.funded hd).exits (h.sound hd.chain_sound) hview hlive hnow hself hreceives
    (fun _ => ht) fun _ => lt_of_le_of_lt (Nat.le_add_right _ _) ht

/-- The lot of the sample sale comes back when nobody opened the reveal. -/
theorem no_trapped_funds_v2_sample : ∃ c events, Run Sample.host Sample.deployed events c ∧
    c.world.locked Sample.lotAsset = 7 ∧
    c.world.Exits Sample.host (Sample.tx Sample.bob 5000) (.v2 1) := by
  obtain ⟨c, events, hrun, hstate⟩ := Chain.exec_reaches Sample.host
    Sample.deployed Sample.sale
    (fun c _ => (c.world.locked Sample.lotAsset, decide (c.now ≤ 5000),
      (c.world.store.roundV2 1).map fun round : RoundV2 => (round.status, round.revealDeadline)))
    ((7, true, some (Status.Open, 1100))) (by decide +kernel)
  obtain ⟨hlocked, hstate⟩ := Prod.mk.inj hstate
  obtain ⟨hnow, hround⟩ := Prod.mk.inj hstate
  obtain ⟨round, hr, hvalue⟩ := Option.map_eq_some_iff.mp hround
  obtain ⟨hst, hdead⟩ := Prod.mk.inj hvalue
  exact ⟨c, events, hrun, hlocked, no_trapped_funds_v2 Sample.deployed_ok hrun hr
    (by simp [hst]) (by simp [hst]) (of_decide_eq_true hnow) (by rw [hdead]; decide) rfl
    fun _ _ => rfl⟩

/-! ## The end of time -/

theorem invokeAll_head {call : Call} {rest : List Call} {w : World} {p : World × List Transfer}
    (h : invokeAll host tx (call :: rest) w = some p) : ∃ o, invoke host tx call w = .ok o := by
  rw [invokeAll] at h
  split at h
  · next o ho => exact ⟨o, ho⟩
  · cases h

/-- The only exit of a round nobody opened is to void it after the grace. -/
theorem World.Sound.exits_open {w : World} (tx : Transaction)
    (hw : w.Sound host config tx.timestamp.toNat) (hself : tx.auths host.currentContract = false)
    (hr : w.view key = some r)
    (hs : r.status = .Open) (h : w.Exits host tx key) :
    r.terms.revealDeadline + 3600 < tx.timestamp.toNat := by
  obtain ⟨calls, hcalls, w', ts, -, -, hinvoke, -⟩ := h
  have hfirst : ∀ (action : Action) {call : Call} {rest : List Call}, calls = call :: rest →
      (∀ value, call.key value = some key) → call.action = some action →
      ∃ ts r', Transition host tx.timestamp.toNat r action ts r' := by
    rintro action call rest rfl hkey haction
    obtain ⟨o, ho⟩ := invokeAll_head hinvoke
    obtain ⟨q, r', hq, -, hstep⟩ := hw.invoke_step hself ho (hkey o.value) haction
    obtain rfl : r = q := Option.some_inj.mp (hr.symm.trans hq)
    exact ⟨_, r', hstep⟩
  have hclear : ∀ ts r', ¬ Transition host tx.timestamp.toNat r .clear ts r' := by
    intro ts r' hstep
    cases hstep with
    | clear _ _ hs' => simp [hs] at hs'
    | clearVoid hs' => simp [hs] at hs'
    | finalize hs' => simp [hs] at hs'
  simp only [RoundKey.exits, List.mem_cons, List.not_mem_nil, or_false] at hcalls
  rcases hcalls with hcalls | hcalls | hcalls | hcalls
  · obtain ⟨ts, r', hstep⟩ := hfirst .void hcalls (fun _ => by cases key <;> rfl)
      (by cases key <;> rfl)
    cases hstep with
    | void _ ht => exact ht
  · obtain ⟨ts, r', hstep⟩ := hfirst .clear hcalls (fun _ => by cases key <;> rfl)
      (by cases key <;> rfl)
    exact absurd hstep (hclear ts r')
  · obtain ⟨ts, r', hstep⟩ := hfirst .clear hcalls (fun _ => by cases key <;> rfl)
      (by cases key <;> rfl)
    exact absurd hstep (hclear ts r')
  · obtain ⟨ts, r', hstep⟩ := hfirst .settle hcalls (fun _ => by cases key <;> rfl)
      (by cases key <;> rfl)
    cases hstep with
    | settle _ hs' => simp [hs] at hs'

/-- A round of the first generation has an exit at some time from now on. -/
def Chain.CanExit (host : Host) (c : Chain) (id : UInt64) : Prop :=
  ∀ r, c.world.view (.v1 id) = some r → r.Live → ∃ t : UInt64, c.now ≤ t ∧
    ∀ tx : Transaction, tx.timestamp = t → tx.auths host.currentContract = false →
      tx.Receives host → c.world.Exits host tx (.v1 id)

/-- From now on `void` returns or reports an error. -/
def Chain.VoidReturns (host : Host) (c : Chain) (id : UInt64) : Prop :=
  ∀ tx : Transaction, c.now ≤ tx.timestamp → tx.Receives host →
    invoke host tx (.void id) c.world ≠ .error .trap

theorem invoke_void_trap {tx : Transaction} {w : World} {id : UInt64} :
    invoke host tx (.void id) w = .error .trap ↔ Traps (void id) ⟨host, tx⟩ w.frame := by
  rw [← traps_map (fun _ => Value.unit)]
  exact invoke_eq_error

/-- Apart from the overflow of the grace, `void` never traps. -/
theorem Chain.Funded.void_traps (hf : c.Funded host) (hs : c.Sound host config) {id : UInt64}
    {round : Round} (hr : c.world.store.round id = some round) (hnow : c.now ≤ tx.timestamp)
    (hreceives : tx.Receives host) :
    invoke host tx (.void id) c.world = .error .trap ↔
      round.status = .Open ∧ 2 ^ 64 ≤ round.revealDeadline.toNat + 3600 := by
  have hle := UInt64.le_iff_toNat_le.mp hnow
  have hw := hs.world.later hle
  obtain ⟨hview, hsound⟩ := (hw.env tx).round_sound hr
  rw [invoke_void_trap]
  refine traps_void (hw.env tx) hr fun hst ht => ?_
  exact hf.pays hs hview hle (Transition.void hst ht) hsound.paidBy_refunds
    fun u hu => hreceives u (hsound.paidBy_refunds u hu).1

/-- What a successful creation stored. -/
theorem World.Sound.created_v1 {w : World} {now : Nat} (hw : w.Sound host config now)
    {args : RoundArgs} {o : Outcome} {id : UInt64}
    (h : invoke host tx (.createRound args) w = .ok o) (hid : o.value = .roundId id) :
    o.world.store.round id = some args.newRound := by
  obtain ⟨j, hy, hj⟩ := (yields_map ..).mp (invoke_eq_ok.mp h)
  obtain rfl : id = j := Value.roundId.inj (hid.symm.trans hj)
  obtain ⟨-, -, -, -, -, -, -, hf⟩ :=
    (yields_createRound (hw.env tx).configured args _).mp hy
  have hstore : o.world.store =
      { w.store with roundCounter := some id }.setRound id args.newRound :=
    congrArg (fun f : Frame => f.store) hf
  rw [hstore]
  simp [Store.setRound]

/-- **The exits of the first generation.** They are there exactly when the end
of the grace is a ledger time with a later one. -/
theorem no_trapped_funds_v1_iff {c₀ : Chain} {events : List Event} (hd : Deployed config c₀)
    (h : Run host c₀ events c) {args : RoundArgs} {o : Outcome} {id : UInt64}
    (hnow : c.now ≤ tx.timestamp) (hself : tx.auths host.currentContract = false)
    (hcreate : invoke host tx (.createRound args) c.world = .ok o)
    (hid : o.value = .roundId id) :
    (∀ events' c', Run host ⟨o.world, tx.timestamp⟩ events' c' →
      c'.CanExit host id ∧ c'.VoidReturns host id) ↔
    args.revealDeadline.toNat + 3600 < 2 ^ 64 - 1 := by
  have hs := h.sound hd.chain_sound
  have hstep : Step host c (.called tx (.createRound args) o.value o.transfers)
      ⟨o.world, tx.timestamp⟩ := Step.called hnow hself hcreate
  have hs₁ := hstep.sound hs
  have hround := hs.world.created_v1 hcreate hid
  have hview : o.world.view (.v1 id) =
      some (args.newRound.view config (o.world.store.state id)) := hs₁.world.view_round hround
  constructor
  · intro hexit
    obtain ⟨t, ht, hout⟩ := (hexit [] _ Runs.Run.nil).1 _ hview (Or.inl rfl)
    let tx' : Transaction := ⟨t, 0, fun _ => false, fun _ => true⟩
    have hlt := World.Sound.exits_open tx'
      (hs₁.world.later (UInt64.le_iff_toNat_le.mp ht)) rfl hview rfl
      (hout tx' rfl rfl fun _ _ => rfl)
    have htop := t.toNat_lt
    have hlt : args.revealDeadline.toNat + 3600 < t.toNat := hlt
    omega
  · intro hbound events' c' hrun
    have hs' := hrun.sound hs₁
    have hf' : c'.Funded host := Run.funded hd ((h.snoc hstep).append hrun)
    obtain ⟨r, hr, hterms⟩ := hrun.terms hs₁ hview
    have hdeadline : r.terms.revealDeadline = args.revealDeadline.toNat := by rw [hterms]; rfl
    constructor
    · intro q hq hlive
      obtain rfl : r = q := Option.some_inj.mp (hr.symm.trans hq)
      have hlast : (18446744073709551615 : UInt64).toNat = 2 ^ 64 - 1 := rfl
      refine ⟨18446744073709551615, ?_, ?_⟩
      · rw [UInt64.le_iff_toNat_le, hlast]
        have := c'.now.toNat_lt
        omega
      · intro tx' htime hself' hreceives
        refine hf'.exits hs' hr hlive ?_ hself' hreceives ?_ ?_ <;>
          rw [htime]
        · rw [UInt64.le_iff_toNat_le, hlast]
          have := c'.now.toNat_lt
          omega
        · intro _
          omega
        · intro _
          omega
    · intro tx' hnow' hreceives htrap
      obtain ⟨round, hround', rfl⟩ := hs'.world.of_view_v1 hr
      have hover := ((hf'.void_traps hs' hround' hnow' hreceives).mp htrap).2
      have hdeadline : round.revealDeadline.toNat = args.revealDeadline.toNat := hdeadline
      omega

/-- The sample auction can end whatever is called. -/
theorem no_trapped_funds_v1_sample : ∃ o, invoke Sample.host (Sample.tx Sample.operator 1000)
    (.createRound Sample.args) Sample.deployed.world = .ok o ∧
    ∀ events' c', Run Sample.host ⟨o.world, 1000⟩ events' c' →
      c'.CanExit Sample.host 1 ∧ c'.VoidReturns Sample.host 1 := by
  have hcreate : ∃ o, invoke Sample.host (Sample.tx Sample.operator 1000)
      (.createRound Sample.args) Sample.deployed.world = .ok o ∧ o.value = .roundId 1 :=
    ⟨_, rfl, rfl⟩
  obtain ⟨o, ho, hid⟩ := hcreate
  exact ⟨o, ho, (no_trapped_funds_v1_iff Sample.deployed_ok Runs.Run.nil (by decide) rfl ho
    hid).mpr (by decide)⟩

/-- Alice locks her escrow in a round that `create_round` accepted: nobody can
end it at any time, and `void` always traps. -/
theorem trapped_funds_v1 : ∃ c events, Run Sample.host Sample.deployed events c ∧
    c.world.locked Sample.config.usdc = 50 ∧ ¬ c.CanExit Sample.host 1 ∧
    ∀ tx : Transaction, c.now ≤ tx.timestamp → tx.Receives Sample.host →
      invoke Sample.host tx (.void 1) c.world = .error .trap := by
  obtain ⟨c, events, hrun, hstate⟩ := Chain.exec_reaches Sample.host
    Sample.deployed Sample.endless
    (fun c _ => (c.world.locked Sample.config.usdc,
      (c.world.store.round 1).map fun round : Round => (round.status, round.revealDeadline)))
    ((50, some (Status.Open, 18446744073709551615))) (by decide +kernel)
  obtain ⟨hlocked, hround⟩ := Prod.mk.inj hstate
  obtain ⟨round, hr, hvalue⟩ := Option.map_eq_some_iff.mp hround
  obtain ⟨hst, hdead⟩ := Prod.mk.inj hvalue
  have hs := hrun.sound Sample.deployed_ok.chain_sound
  have hlast : round.revealDeadline.toNat = 2 ^ 64 - 1 := by rw [hdead]; rfl
  refine ⟨c, events, hrun, hlocked, fun hexit => ?_, fun tx hnow hreceives => ?_⟩
  · have hview : c.world.view (.v1 1) =
        some (round.view Sample.config (c.world.store.state 1)) := hs.world.view_round hr
    obtain ⟨t, ht, hout⟩ := hexit _ hview (Or.inl hst)
    let tx : Transaction := ⟨t, 0, fun _ => false, fun _ => true⟩
    have hlt : round.revealDeadline.toNat + 3600 < t.toNat := World.Sound.exits_open tx
      (hs.world.later (UInt64.le_iff_toNat_le.mp ht)) rfl hview hst (hout tx rfl rfl fun _ _ => rfl)
    have htop := t.toNat_lt
    omega
  · exact ((hrun.funded Sample.deployed_ok).void_traps hs hr hnow hreceives).mpr
      ⟨hst, by omega⟩

end

end SubRosa
