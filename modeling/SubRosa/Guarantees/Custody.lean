import SubRosa.Auction.Script
import SubRosa.Auction.Owed

/-!
# Custody

What the contract holds of an asset is what it started with, what was donated,
and what the live rounds of both generations have locked, nothing else.
-/

namespace SubRosa

open MachineInt TokenLedger

/-- The escrow or the lot of a round in this status can be in custody. -/
def Status.live : Status → Bool
  | .Open => true
  | .Revealing => true
  | .Cleared => true
  | .Settled => false
  | .Voided => false

/-- The escrows of the listed bidders. -/
def escrowSum {S : Type} [EscrowRecord S] (records : Address → Option S)
    (bidders : List Address) : Int :=
  (bidders.map fun b => ((records b).map fun s => (EscrowRecord.escrow s).toInt).getD 0).sum

/-- What a round of the first generation has locked of the configured asset. -/
def Round.locked (round : Round) (states : Address → Option BidState) : Int :=
  if round.status.live = true then escrowSum states round.bidders else 0

/-- What an auction of the second or third generation has locked of an asset;
the payment and the lot asset may be the same. -/
def RoundV2.locked (round : RoundV2) (submissions : Address → Option SubmissionStateV2)
    (asset : Address) : Int :=
  if round.mode = .Auction ∧ round.status.live = true then
    (if round.paymentAsset = some asset then escrowSum submissions round.bidders else 0) +
      (if round.lotAsset = some asset then round.lotAmount.toInt else 0)
  else 0

/-- What the rounds stored under an id have locked of an asset. -/
def World.lockedUnder (w : World) (asset : Address) (id : UInt64) : Int :=
  (match w.store.config, w.store.round id with
    | some config, some round =>
        if config.usdc = asset then round.locked (w.store.state id) else 0
    | _, _ => 0) +
  (match w.store.roundV2 id with
    | some round => round.locked (w.store.submissionV2 id) asset
    | none => 0)

/-- Every id up to the counter. -/
def Store.ids (s : Store) : List UInt64 := (List.range (s.lastId + 1)).map UInt64.ofNat

/-- What all rounds have locked of an asset. -/
def World.locked (w : World) (asset : Address) : Int :=
  (w.store.ids.map (w.lockedUnder asset)).sum

/-! ## One round -/

section Round

variable {host : Host} {config : GlobalConfig} {now : Nat}

/-- What the contract has of a round: its escrows and its lot while it is live. -/
def SealedRound.held (r : SealedRound) (asset : Address) : Int :=
  if r.Live then
    (if r.terms.payment = some asset then (r.bidders.map r.escrowOf).sum else 0) +
      (match r.terms.lot with
        | some (lot, amount) => if lot = asset then amount else 0
        | none => 0)
  else 0

theorem SealedRound.net_lock_contract (r : SealedRound) {contract b : Address} (hb : b ≠ contract)
    (n : Int) (a : Address) :
    net (r.lock contract b n) a contract = if r.terms.payment = some a then n else 0 := by
  unfold SealedRound.lock
  cases r.terms.payment with
  | none => simp
  | some asset => simp [Transfer.flow, hb]

theorem SealedRound.net_lotFrom_contract (r : SealedRound) {contract b : Address}
    (hb : b ≠ contract) (a : Address) :
    net (r.lotFrom contract b) a contract = match r.terms.lot with
      | some (lot, amount) => if lot = a then amount else 0
      | none => 0 := by
  unfold SealedRound.lotFrom
  cases r.terms.lot with
  | none => simp
  | some lot => simp [Transfer.flow, hb]

/-- Seen from the contract, the position of a round is what it holds. -/
theorem SealedRound.Sound.net_position {r : SealedRound} (h : r.Sound host config now)
    (a : Address) :
    net (r.position host.currentContract) a host.currentContract = r.held a := by
  unfold SealedRound.held
  by_cases hlive : r.Live
  · have hsum : (r.bidders.map fun b =>
        net (r.lock host.currentContract b (r.escrowOf b)) a host.currentContract).sum =
          if r.terms.payment = some a then (r.bidders.map r.escrowOf).sum else 0 := by
      have heach : r.bidders.map (fun b =>
          net (r.lock host.currentContract b (r.escrowOf b)) a host.currentContract) =
            r.bidders.map fun b => if r.terms.payment = some a then r.escrowOf b else 0 :=
        List.map_congr_left fun b hb => r.net_lock_contract (h.outsiders b hb) _ a
      rw [heach]
      split
      · rfl
      · simp
    rw [if_pos hlive, position_of_live _ hlive, net_custody, hsum,
      r.net_lotFrom_contract h.operator]
  · rw [if_neg hlive]
    cases hs : r.status with
    | Open => exact absurd (Or.inl hs) hlive
    | Revealing => exact absurd (Or.inr (Or.inl hs)) hlive
    | Cleared => exact absurd (Or.inr (Or.inr hs)) hlive
    | Voided => simp [SealedRound.position, hs]
    | Settled =>
      simp only [SealedRound.position, hs]
      have hwin := (h.settled hs).2
      cases hp : r.terms.payment with
      | none =>
        rw [hp] at hwin
        simp [hwin.1]
      | some asset =>
        rw [hp] at hwin
        obtain ⟨w, hw, hbest⟩ := hwin
        have hmem := (h.winner_covered (by simp [hp]) hbest).1
        have hwo := h.outsiders w hmem
        have hop := h.operator
        simp only [hw, Option.map_some, Option.getD_some, SealedRound.sale, hp, net_cons,
          Transfer.flow, if_neg hwo, if_neg hop]
        cases r.terms.lot with
        | none => simp
        | some lot => simp [Transfer.flow, hwo, hop]

/-- A sound round holds a non-negative amount. -/
theorem SealedRound.Sound.held_nonneg {r : SealedRound} (h : r.Sound host config now)
    (a : Address) : 0 ≤ r.held a := by
  have hsum : 0 ≤ (r.bidders.map r.escrowOf).sum :=
    List.sum_nonneg fun n hn => by
      obtain ⟨b, -, rfl⟩ := List.mem_map.mp hn
      exact h.escrowOf_nonneg b
  have hlot : 0 ≤ (match r.terms.lot with
      | some (lot, amount) => if lot = a then amount else 0
      | none => 0) := by
    cases hl : r.terms.lot with
    | none => simp
    | some lot =>
      have hpos := h.lot lot.1 lot.2 hl
      simp only
      split <;> omega
  unfold SealedRound.held
  split
  · split <;> omega
  · exact le_refl 0

end Round

/-! ## All rounds -/

/-- What an optional round holds. -/
def heldOf (o : Option SealedRound) (asset : Address) : Int :=
  (o.map fun r => r.held asset).getD 0

section Rounds

variable {host : Host} {config : GlobalConfig} {now : Nat} {w w' : World}

theorem Status.live_iff (status : Status) :
    status.live = true ↔ status = .Open ∨ status = .Revealing ∨ status = .Cleared := by
  cases status <;> simp [Status.live]

theorem escrowSum_eq {S : Type} [SealedRecord S] {records : Address → Option S} {r : SealedRound}
    (h : ∀ b, r.entry b = (records b).map SealedRecord.entry) (bidders : List Address) :
    escrowSum records bidders = (bidders.map r.escrowOf).sum := by
  unfold escrowSum
  congr 1
  apply List.map_congr_left
  intro b _
  unfold SealedRound.escrowOf
  rw [h b, Option.map_map]
  cases records b with
  | none => rfl
  | some st => exact (SealedRecord.entry_escrow st).symm

theorem Round.held_view (config : GlobalConfig) (round : Round)
    (states : Address → Option BidState) (asset : Address) :
    (round.view config states).held asset =
      if config.usdc = asset then round.locked states else 0 := by
  have hsum : escrowSum states round.bidders =
      (round.bidders.map (round.view config states).escrowOf).sum := escrowSum_eq (fun _ => rfl) _
  have hlive : (round.view config states).Live ↔ round.status.live = true :=
    (Status.live_iff _).symm
  unfold SealedRound.held Round.locked
  simp only [hlive, hsum]
  show (if round.status.live = true then (if some config.usdc = some asset then
    (round.bidders.map (round.view config states).escrowOf).sum else 0) + (0 : Int) else 0) = _
  simp only [Option.some_inj, add_zero]
  split_ifs <;> rfl

theorem RoundV2.held_view {round : RoundV2} (h : round.Consistent)
    (submissions : Address → Option SubmissionStateV2) (asset : Address) :
    (round.view submissions).held asset = round.locked submissions asset := by
  have hsum : escrowSum submissions round.bidders =
      (round.bidders.map (round.view submissions).escrowOf).sum := escrowSum_eq (fun _ => rfl) _
  have hlive : (round.view submissions).Live ↔ round.status.live = true :=
    (Status.live_iff _).symm
  have hlot : (match (round.view submissions).terms.lot with
      | some (lot, amount) => if lot = asset then amount else 0
      | none => 0) = if round.lotAsset = some asset then round.lotAmount.toInt else 0 := by
    cases hl : round.lotAsset <;> simp [RoundV2.view, hl]
  unfold SealedRound.held RoundV2.locked
  have hpayment : (round.view submissions).terms.payment = round.paymentAsset := rfl
  have hbidders : (round.view submissions).bidders = round.bidders := rfl
  rw [hlot]
  simp only [hlive, hsum, hpayment, hbidders]
  cases hm : round.mode with
  | Auction => simp
  | ReceiptOnly => simp [(h.receiptOnly hm).1, (h.receiptOnly hm).2]

/-- The stored amounts are those of the sealed rounds. -/
theorem World.Sound.lockedUnder (h : w.Sound host config now) (asset : Address) (id : UInt64) :
    w.lockedUnder asset id =
      heldOf (w.view (.v1 id)) asset + heldOf (w.view (.v2 id)) asset := by
  unfold World.lockedUnder
  congr 1
  · rw [h.view_v1, h.configured]
    cases w.store.round id with
    | none => rfl
    | some round => exact (round.held_view config _ asset).symm
  · rw [World.view_v2]
    cases hr : w.store.roundV2 id with
    | none => rfl
    | some round => exact (RoundV2.held_view (h.consistent id round hr) _ asset).symm

theorem ofNat_ne {n : Nat} {id : UInt64} (hn : n < 2 ^ 64) (hne : n ≠ id.toNat) :
    UInt64.ofNat n ≠ id := by
  rintro rfl
  exact hne (UInt64.toNat_ofNat_of_lt' hn).symm

/-- What all rounds have locked, through their views. -/
theorem World.Sound.locked (h : w.Sound host config now) (asset : Address) :
    w.locked asset = ((List.range (w.store.lastId + 1)).map fun n =>
      heldOf (w.view (.v1 (UInt64.ofNat n))) asset +
        heldOf (w.view (.v2 (UInt64.ofNat n))) asset).sum := by
  unfold World.locked Store.ids
  rw [List.map_map]
  congr 1
  exact List.map_congr_left fun n _ => h.lockedUnder asset _

/-- The round under one key changed and nothing else. -/
theorem locked_change (h : w.Sound host config now) (h' : w'.Sound host config now)
    {key : RoundKey} (hkey : key.id.toNat ≤ w.store.lastId)
    (hlast : w'.store.lastId = w.store.lastId)
    (hother : ∀ other, other ≠ key → w'.view other = w.view other) (asset : Address) :
    w'.locked asset = w.locked asset + heldOf (w'.view key) asset - heldOf (w.view key) asset := by
  rw [h.locked, h'.locked, hlast]
  have hmem : key.id.toNat ∈ List.range (w.store.lastId + 1) := List.mem_range.mpr (by omega)
  have hround : UInt64.ofNat key.id.toNat = key.id := UInt64.ofNat_toNat
  have htop : w.store.lastId < 2 ^ 64 := (w.store.roundCounter.getD 0).toNat_lt
  rw [sum_map_update List.nodup_range hmem (g := fun n =>
    heldOf (w.view (.v1 (UInt64.ofNat n))) asset + heldOf (w.view (.v2 (UInt64.ofNat n))) asset)
    (fun n hn hne => by
      have hid := ofNat_ne (by have := List.mem_range.mp hn; omega) hne
      rw [hother (.v1 (UInt64.ofNat n)) (by rintro rfl; exact hid rfl),
        hother (.v2 (UInt64.ofNat n)) (by rintro rfl; exact hid rfl)])]
  rw [hround]
  cases key with
  | v1 id =>
    have hv2 := hother (.v2 id) (by simp)
    simp only [RoundKey.id, hv2]
    omega
  | v2 id =>
    have hv1 := hother (.v1 id) (by simp)
    simp only [RoundKey.id, hv1]
    omega

/-- A new round adds what it holds. -/
theorem locked_created (h : w.Sound host config now) (h' : w'.Sound host config now)
    {key : RoundKey} (hg : w.store.Grows key w'.store) (asset : Address) :
    w'.locked asset = w.locked asset + heldOf (w'.view key) asset := by
  have hlast : w'.store.lastId = w.store.lastId + 1 := by
    rw [Store.lastId, hg.roundCounter, Option.getD_some, hg.next]
  have htop : w'.store.lastId < 2 ^ 64 := (w'.store.roundCounter.getD 0).toNat_lt
  have hround : UInt64.ofNat (w.store.lastId + 1) = key.id := by
    rw [← hg.next, UInt64.ofNat_toNat]
  have hold : (List.range (w.store.lastId + 1)).map (fun n =>
      heldOf (w'.view (.v1 (UInt64.ofNat n))) asset +
        heldOf (w'.view (.v2 (UInt64.ofNat n))) asset) =
      (List.range (w.store.lastId + 1)).map fun n =>
        heldOf (w.view (.v1 (UInt64.ofNat n))) asset +
          heldOf (w.view (.v2 (UInt64.ofNat n))) asset :=
    List.map_congr_left fun n hn => by
      have hlt := List.mem_range.mp hn
      have hid : UInt64.ofNat n ≠ key.id :=
        ofNat_ne (by omega) (by have := hg.next; omega)
      rw [hg.view (show RoundKey.v1 (UInt64.ofNat n) ≠ key by rintro rfl; exact hid rfl),
        hg.view (show RoundKey.v2 (UInt64.ofNat n) ≠ key by rintro rfl; exact hid rfl)]
  have hunused := (h.fresh hg).2
  rw [h.locked, h'.locked, hlast, List.range_succ, List.map_append, List.sum_append, hold]
  simp only [List.map_cons, List.map_nil, List.sum_cons, List.sum_nil, hround]
  cases key with
  | v1 id =>
    have hv2 : w'.view (.v2 id) = none := by
      rw [hg.view (show RoundKey.v2 id ≠ .v1 id by simp), World.view_v2,
        show w.store.roundV2 id = none from hunused.roundV2, Option.map_none]
    simp [RoundKey.id, hv2, heldOf]
  | v2 id =>
    have hv1 : w'.view (.v1 id) = none := by
      rw [hg.view (show RoundKey.v1 id ≠ .v2 id by simp), h.view_v1,
        show w.store.round id = none from hunused.round, Option.map_none]
    simp [RoundKey.id, hv1, heldOf]

end Rounds

/-! ## All runs -/

section Runs

variable {host : Host} {config : GlobalConfig}

/-- The contract's side of a successful call is the change of what is locked. -/
theorem invoke_locked {tx : Transaction} {call : Call} {w : World} {o : Outcome}
    (hw : w.Sound host config tx.timestamp.toNat) (hself : tx.auths host.currentContract = false)
    (h : invoke host tx call w = .ok o) (asset : Address) :
    net o.transfers asset host.currentContract = o.world.locked asset - w.locked asset := by
  have hw' := invoke_sound hw hself h
  obtain ⟨key, -, href⟩ := invoke_refines hw hself h
  split at href
  · obtain ⟨r, r', hr, hr', hstep⟩ := href.step
    have hr' : o.world.view key = some r' := hr'
    have hlast : o.world.store.lastId = w.store.lastId := by
      rw [Store.lastId, href.evolves.roundCounter]
      rfl
    have hsound := hw.views key r hr
    have hchange := locked_change hw hw' (hw.key_used hr) hlast
      (fun other hne => href.evolves.view hne) asset
    have haccounts := hstep.accounts hsound asset host.currentContract
    have haccounts : net o.transfers asset host.currentContract = _ := haccounts
    rw [haccounts, hchange, hr, hr', (hstep.sound hsound).net_position, hsound.net_position]
    simp only [heldOf, Option.map_some, Option.getD_some]
    omega
  · obtain ⟨r, hr, hcreated, htransfers⟩ := href.created
    have hr : o.world.view key = some r := hr
    have htransfers : o.transfers = r.lotFrom host.currentContract r.terms.operator := htransfers
    have hadd := locked_created hw hw' href.grows asset
    have hheld : heldOf (o.world.view key) asset =
        net (r.lotFrom host.currentContract r.terms.operator) asset host.currentContract := by
      have hpos := hcreated.sound.net_position asset
      rw [SealedRound.position_of_live _ (Or.inl hcreated.status), SealedRound.net_custody,
        hcreated.bidders] at hpos
      rw [hr, heldOf, Option.map_some, Option.getD_some, ← hpos]
      simp
    rw [htransfers, hadd, hheld]
    omega

/-- One step keeps the gap between the balance and what is locked, up to donations. -/
theorem Step.locked {c c' : Chain} {e : Event} (h : Step host c e c') (hs : c.Sound host config)
    (asset : Address) :
    c'.world.balances asset host.currentContract - c'.world.locked asset =
      c.world.balances asset host.currentContract - c.world.locked asset +
        e.donated host asset := by
  have hbalance := h.balance hs asset host.currentContract
  cases h with
  | called hnow hself hcall =>
    have hlocked :=
      invoke_locked (hs.world.later (UInt64.le_iff_toNat_le.mp hnow)) hself hcall asset
    simp only [Event.transfers, Event.donated] at hbalance ⊢
    omega
  | failed => simp [Event.donated]
  | @outside t b hsource htransfer =>
    have hflow : net [t] asset host.currentContract = (Event.outside t).donated host asset := by
      simp only [net_cons, net_nil, Transfer.flow, if_neg hsource, Event.donated]
      by_cases ha : t.asset = asset <;> by_cases ht : t.target = host.currentContract <;>
        simp [ha, ht]
    rw [Event.transfers, hflow] at hbalance
    have hsame : World.locked { c.world with balances := b } asset = c.world.locked asset := rfl
    rw [hbalance, hsame]
    omega
  | revealStateLost id =>
    have hsame : (c.world.loseRevealState id).locked asset = c.world.locked asset := rfl
    simp only [Event.transfers, Event.donated, net_nil] at hbalance ⊢
    rw [hsame]
    omega

/-- The contract holds at least what its rounds have locked. -/
def Chain.Funded (host : Host) (c : Chain) : Prop :=
  ∀ asset, c.world.locked asset ≤ c.world.balances asset host.currentContract

theorem Step.donated_nonneg {c c' : Chain} {e : Event} (h : Step host c e c') (asset : Address) :
    0 ≤ e.donated host asset := by
  cases h with
  | @outside t b hsource htransfer =>
    have h0 : 0 ≤ t.amount := (transfer?_eq_some.mp htransfer).1.2.1
    show (0 : Int) ≤ if t.asset = asset ∧ t.target = host.currentContract then t.amount else 0
    split
    · exact h0
    · exact le_refl 0
  | called => exact le_refl 0
  | failed => exact le_refl 0
  | revealStateLost => exact le_refl 0

theorem Deployed.locked {c : Chain} (h : Deployed config c) (asset : Address) :
    c.world.locked asset = 0 := by
  simp [World.locked, Store.ids, Store.lastId, World.lockedUnder, h.1, Store.empty]

theorem Step.funded {c c' : Chain} {e : Event} (h : Step host c e c') (hs : c.Sound host config)
    (hf : c.Funded host) : c'.Funded host := by
  intro asset
  have hgap := h.locked hs asset
  have hdonated := h.donated_nonneg asset
  have hold := hf asset
  omega

theorem Run.funded {c₀ c : Chain} {events : List Event} (hd : Deployed config c₀)
    (h : Run host c₀ events c) : c.Funded host := by
  refine Runs.Run.invariant_of (J := Chain.Sound host config) (I := Chain.Funded host)
    (fun _ _ _ hc hstep => Step.sound hstep hc)
    (fun _ _ _ hc hf hstep => Step.funded hstep hc hf) h hd.chain_sound fun asset => ?_
  rw [hd.locked]
  exact hd.2 asset _

/-- One round never has more than all rounds. -/
theorem World.Sound.held_le_locked {w : World} {now : Nat} (h : w.Sound host config now)
    {key : RoundKey} {r : SealedRound} (hr : w.view key = some r) (asset : Address) :
    r.held asset ≤ w.locked asset := by
  have hnonneg : ∀ other, 0 ≤ heldOf (w.view other) asset := by
    intro other
    cases ho : w.view other with
    | none => exact le_refl 0
    | some q => exact (h.views other q ho).held_nonneg asset
  have hround : UInt64.ofNat key.id.toNat = key.id := UInt64.ofNat_toNat
  have hmem : heldOf (w.view (.v1 key.id)) asset + heldOf (w.view (.v2 key.id)) asset ∈
      (List.range (w.store.lastId + 1)).map fun n =>
        heldOf (w.view (.v1 (UInt64.ofNat n))) asset +
          heldOf (w.view (.v2 (UInt64.ofNat n))) asset :=
    List.mem_map.mpr ⟨key.id.toNat, List.mem_range.mpr (by have := h.key_used hr; omega), by
      rw [hround]⟩
  have hle := List.single_le_sum (fun n hn => by
    obtain ⟨m, -, rfl⟩ := List.mem_map.mp hn
    exact add_nonneg (hnonneg _) (hnonneg _)) _ hmem
  rw [← h.locked] at hle
  have hheld : heldOf (w.view key) asset = r.held asset := by rw [hr]; rfl
  have h1 := hnonneg (.v1 key.id)
  have h2 := hnonneg (.v2 key.id)
  cases key with
  | v1 id =>
    simp only [RoundKey.id] at hle h2
    omega
  | v2 id =>
    simp only [RoundKey.id] at hle h1
    omega

/-- **Payouts are funded.** The outgoing transfers of a step go through when
they are accepted. -/
theorem Chain.Funded.pays {c : Chain} (hf : c.Funded host) (hs : c.Sound host config)
    {key : RoundKey} {r r' : SealedRound} (hr : c.world.view key = some r) {t : Nat}
    (hle : c.now.toNat ≤ t) {action : Action} {ts : List Transfer}
    (hstep : Transition host t r action ts r') (hout : PaidBy host.currentContract ts)
    {accepts : Transfer → Bool} (hacc : ∀ u ∈ ts, accepts u = true) :
    ∃ b, transferAll? accepts c.world.balances ts = some b := by
  apply hout.transferAll? hacc
  intro asset
  have hsound := (hs.world.views key r hr).later hle
  have haccounts := hstep.accounts hsound asset host.currentContract
  rw [(hstep.sound hsound).net_position, hsound.net_position] at haccounts
  have hnonneg := (hstep.sound hsound).held_nonneg asset
  have hlocked := hs.world.held_le_locked hr asset
  have hfunds := hf asset
  omega

/-- **Custody.** -/
theorem custody {c₀ c : Chain} {events : List Event} (hd : Deployed config c₀)
    (h : Run host c₀ events c) :
    (∀ id, c.world.store.round id ≠ none ∨ c.world.store.roundV2 id ≠ none →
      id ∈ c.world.store.ids) ∧
    ∀ asset, c.world.balances asset host.currentContract =
      c₀.world.balances asset host.currentContract + donations host asset events +
        c.world.locked asset := by
  have hs := h.sound hd.chain_sound
  constructor
  · intro id hid
    have hle : id.toNat ≤ c.world.store.lastId := by
      by_contra hlt
      have hunused := hs.world.unused id (by omega)
      exact hid.elim (· hunused.round) (· hunused.roundV2)
    exact List.mem_map.mpr ⟨id.toNat, List.mem_range.mpr (by omega), UInt64.ofNat_toNat⟩
  · intro asset
    have hrun := Runs.Run.accounts (J := Chain.Sound host config)
      (fun _ _ _ hc hstep => Step.sound hstep hc)
      (fun d => d.world.balances asset host.currentContract - d.world.locked asset)
      (Event.donated host asset) (fun _ _ _ hc hstep => hstep.locked hc asset) h hd.chain_sound
    rw [hd.locked] at hrun
    rw [donations]
    omega

/-- Two escrows of 50 are locked in the sample auction. -/
theorem custody_sample : ∃ c events, Run Sample.host Sample.deployed events c ∧
    c.world.balances Sample.config.usdc Sample.host.currentContract =
      Sample.deployed.world.balances Sample.config.usdc Sample.host.currentContract +
        donations Sample.host Sample.config.usdc events + c.world.locked Sample.config.usdc ∧
    c.world.locked Sample.config.usdc = 100 := by
  obtain ⟨c, events, hrun, hlocked⟩ := Chain.exec_reaches Sample.host
    Sample.deployed Sample.cleared
    (fun c _ => c.world.locked Sample.config.usdc) 100 (by decide +kernel)
  exact ⟨c, events, hrun, (custody Sample.deployed_ok hrun).2 _, hlocked⟩

end Runs

end SubRosa
