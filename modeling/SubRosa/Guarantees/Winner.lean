import SubRosa.Guarantees.Custody
import SubRosa.Auction.Chronicle

/-!
# The winner

Clearing picks the first best valid bid of the bidders in the order in which
they entered. The order of the reveals has no influence, and a copy of a
revealed bid does not beat the bidder who entered before it.
-/

namespace SubRosa

open MachineInt Invocation TokenLedger

/-- `w` wins with `v`: nobody bid better, and nobody who bid the same entered
before. -/
structure SealedRound.Selects (r : SealedRound) (w : Address) (v : Int) : Prop where
  bidder : w ∈ r.bidders
  bid : r.validBid w = some v
  best : ∀ b ∈ r.bidders, ∀ u, r.validBid b = some u →
    match r.terms.rule with
    | .HighestBid => u ≤ v
    | .LowestBid => v ≤ u
  first : ∀ b ∈ r.bidders, r.validBid b = some v → r.bidders.idxOf w ≤ r.bidders.idxOf b

/-- The submissions stored under a key are the same in both worlds. -/
def World.SameRecords (w w' : World) : RoundKey → Prop
  | .v1 id => w.store.state id = w'.store.state id
  | .v2 id => w.store.submissionV2 id = w'.store.submissionV2 id

section

variable {host : Host} {config : GlobalConfig} {tx : Transaction} {w : World} {key : RoundKey}
  {r r' : SealedRound} {now t : Nat}

theorem SealedRound.selects_of_best {w : Address} {v : Int} (h : r.best = some (w, v)) :
    r.Selects w v := by
  have hfirst := FirstBest.scan_eq_some h
  refine ⟨hfirst.mem, hfirst.1, fun b hb u hu => ?_, fun b hb hv => ?_⟩
  · have hbest := hfirst.best hb hu
    revert hbest
    cases r.terms.rule with
    | HighestBid => exact fun hbest => not_lt.mp hbest
    | LowestBid => exact fun hbest => not_lt.mp hbest
  · exact hfirst.first hb hv (irrefl_of r.terms.rule.Better v)

/-! ## What clearing returns -/

theorem World.Sound.clear_value (hw : w.Sound host config now) {o : Outcome}
    (h : invoke host tx key.clear w = .ok o) (hr : w.view key = some r) :
    o.value =
      .winner (if r.terms.payment.isSome = true then r.best.map Prod.fst else none) := by
  cases key with
  | v1 id =>
    obtain ⟨round, hround, rfl⟩ := hw.of_view_v1 hr
    obtain ⟨winner, hy, hvalue⟩ := (yields_map ..).mp (invoke_eq_ok.mp h)
    obtain ⟨-, -, hout⟩ := (yields_clear (hw.env tx) hround _ _).mp hy
    have hp : (round.view config (w.store.state id)).terms.payment.isSome = true := rfl
    rw [hvalue, if_pos hp]
    split at hout
    · next hbest => rw [hbest, hout.1, Option.map_none]
    · next hbest => rw [hbest, hout.1, Option.map_some]
  | v2 id =>
    obtain ⟨round, hround, rfl⟩ := World.of_view_v2 hr
    obtain ⟨winner, hy, hvalue⟩ := (yields_map ..).mp (invoke_eq_ok.mp h)
    obtain ⟨-, -, hout⟩ := (yields_clearV2 (hw.env tx) hround _ _).mp hy
    have hmode := (hw.consistent id round hround).mode
    rw [hvalue]
    cases hm : round.mode with
    | ReceiptOnly =>
      rw [hm] at hout
      have hp : ¬ (round.view (w.store.submissionV2 id)).terms.payment.isSome = true := by
        intro hp
        rw [hmode.mpr hp] at hm
        cases hm
      rw [if_neg hp, hout.1]
    | Auction =>
      rw [hm] at hout
      have hp : (round.view (w.store.submissionV2 id)).terms.payment.isSome = true := hmode.mp hm
      rw [if_pos hp]
      simp only at hout
      split at hout
      · next hbest => rw [hbest, hout.1, Option.map_none]
      · next hbest => rw [hbest, hout.1, Option.map_some]

theorem clear_on (key : RoundKey) (value : Value) :
    key.clear.key value = some key ∧ key.clear.action = some .clear := by
  cases key <;> exact ⟨rfl, rfl⟩

/-- Clearing leaves one possible round and makes one possible list of transfers. -/
theorem Transition.clear_unique {t' : Nat} {ts ts' : List Transfer} {q q' : SealedRound}
    (h : Transition host t r .clear ts q) (h' : Transition host t' r .clear ts' q') :
    ts = ts' ∧ q = q' := by
  cases h with
  | clear w v _ _ hp hb =>
    cases h' with
    | clear w' v' _ _ _ hb' =>
      rw [hb, Option.some_inj, Prod.mk.injEq] at hb'
      obtain ⟨rfl, rfl⟩ := hb'
      exact ⟨rfl, rfl⟩
    | clearVoid _ _ _ hb' => simp [hb] at hb'
    | finalize _ _ hp' => simp [hp'] at hp
  | clearVoid _ _ hp hb =>
    cases h' with
    | clear _ _ _ _ _ hb' => simp [hb] at hb'
    | clearVoid => exact ⟨rfl, rfl⟩
    | finalize _ _ hp' => simp [hp'] at hp
  | finalize _ _ hp =>
    cases h' with
    | clear _ _ _ _ hp' => simp [hp] at hp'
    | clearVoid _ _ hp' => simp [hp] at hp'
    | finalize => exact ⟨rfl, rfl⟩

theorem Transition.clear_ready {ts : List Transfer} (h : Transition host t r .clear ts r') :
    r.status = .Revealing ∧ r.terms.revealDeadline < t := by
  cases h with
  | clear _ _ hst ht => exact ⟨hst, ht⟩
  | clearVoid hst ht => exact ⟨hst, ht⟩
  | finalize hst ht => exact ⟨hst, ht⟩

/-- Whether a round can be cleared depends only on the round, the time and the
accepted transfers. -/
theorem Chain.Funded.clear_again {c c' : Chain} (hf : c'.Funded host) (hs : c.Sound host config)
    (hs' : c'.Sound host config) (hr : c.world.view key = some r)
    (hr' : c'.world.view key = some r) (hnow : c.now ≤ tx.timestamp)
    (hnow' : c'.now ≤ tx.timestamp) (hself : tx.auths host.currentContract = false)
    {o : Outcome} (h : invoke host tx key.clear c.world = .ok o) :
    ∃ o', invoke host tx key.clear c'.world = .ok o' := by
  have hw := hs.world.later (UInt64.le_iff_toNat_le.mp hnow)
  have hle := UInt64.le_iff_toNat_le.mp hnow'
  have hw' := hs'.world.later hle
  obtain ⟨q, q', hq, -, hstep⟩ := hw.invoke_step hself h (clear_on key o.value).1
    (clear_on key o.value).2
  obtain rfl : r = q := Option.some_inj.mp (hr.symm.trans hq)
  have haccepted := transferAll?_accepted (invoke_paid hw hself h)
  have hready := hstep.clear_ready
  refine (hw'.can_clear hr' hready.1 hready.2 fun hp hbest => ?_).imp fun _ h => h.1
  have hvoid : Transition host tx.timestamp.toNat r .clear (r.refunds host.currentContract)
      r.voided := Transition.clearVoid hready.1 hready.2 hp hbest
  obtain ⟨hts, -⟩ := hstep.clear_unique hvoid
  refine hf.pays hs' hr' hle hvoid (hw'.views key r hr').paidBy_refunds fun u hu => ?_
  rw [← hts] at hu
  exact (haccepted u hu).1

/-! ## The order of the reveals -/

/-- Two ways through the reveal window with the same bidders opened end in the
same round. -/
theorem Run.reveal_order {c c₁ c₂ : Chain} {events₁ events₂ : List Event} {r₁ r₂ : SealedRound}
    (hs : c.Sound host config) (hr : c.world.view key = some r) (hopen : r.status ≠ .Open)
    (h₁ : Run host c events₁ c₁) (h₂ : Run host c events₂ c₂)
    (hr₁ : c₁.world.view key = some r₁) (hst₁ : r₁.status = .Revealing)
    (hr₂ : c₂.world.view key = some r₂) (hst₂ : r₂.status = .Revealing)
    (hsame : ∀ b, (openedBy (some r₁) b).isSome = (openedBy (some r₂) b).isSome)
    (hinj : host.CollisionFree (revealsOn key events₁ ++ revealsOn key events₂)) :
    r₁ = r₂ := by
  have hsound₁ := (h₁.sound hs).world.views key r₁ hr₁
  have hsound₂ := (h₂.sound hs).world.views key r₂ hr₂
  obtain ⟨-, hbidders₁, hentries₁⟩ := h₁.revealing hs hr hopen hr₁ hst₁
  obtain ⟨-, hbidders₂, hentries₂⟩ := h₂.revealing hs hr hopen hr₂ hst₂
  obtain ⟨q₁, hq₁, hterms₁⟩ := h₁.terms hs hr
  obtain ⟨q₂, hq₂, hterms₂⟩ := h₂.terms hs hr
  obtain rfl : r₁ = q₁ := Option.some_inj.mp (hr₁.symm.trans hq₁)
  obtain rfl : r₂ = q₂ := Option.some_inj.mp (hr₂.symm.trans hq₂)
  obtain ⟨hwin₁, hbid₁⟩ := hsound₁.pending (Or.inr (Or.inl hst₁))
  obtain ⟨hwin₂, hbid₂⟩ := hsound₂.pending (Or.inr (Or.inl hst₂))
  have hentries : r₁.entry = r₂.entry := by
    funext b
    have hopened := hsame b
    rcases hentries₁ b with he₁ | ⟨e, x, amount, he, hnone, hx, he₁⟩ <;>
      rcases hentries₂ b with he₂ | ⟨e', y, amount', he', hnone', hy, he₂⟩
    · rw [he₁, he₂]
    · simp [openedBy, he₁, he₂, he', hnone', Entry.open] at hopened
    · simp [openedBy, he₁, he₂, he, hnone, Entry.open] at hopened
    · -- both were opened: the preimages have the same hash
      obtain rfl : e = e' := Option.some_inj.mp (he.symm.trans he')
      obtain ⟨hash₁, hreads₁, -⟩ := (hsound₁.entries b _ he₁).opened x rfl
      obtain ⟨hash₂, hreads₂, -⟩ := (hsound₂.entries b _ he₂).opened y rfl
      obtain rfl : x = y := hinj x (List.mem_append_left _ hx) y (List.mem_append_right _ hy)
        (hash₁.trans hash₂.symm)
      rw [hterms₁] at hreads₁
      rw [hterms₂] at hreads₂
      obtain rfl : amount = amount' := hreads₁.unique hreads₂
      rw [he₁, he₂]
  exact SealedRound.ext (hterms₁.trans hterms₂.symm) (hst₁.trans hst₂.symm)
    (hbidders₁.trans hbidders₂.symm) hentries (hwin₁.trans hwin₂.symm) (hbid₁.trans hbid₂.symm)

/-- Equal rounds are stored as equal records. -/
theorem World.Sound.same_records {w' : World} (hw : w.Sound host config now)
    (hw' : w'.Sound host config t) (hr : w.view key = some r) (hr' : w'.view key = some r) :
    w.SameRecords w' key := by
  have hsound := hw.views key r hr
  cases key with
  | v1 id =>
    obtain ⟨round, hround, rfl⟩ := hw.of_view_v1 hr
    obtain ⟨round', hround', heq⟩ := hw'.of_view_v1 hr'
    funext b
    have hentry : (w.store.state id b).map BidState.entry =
        (w'.store.state id b).map BidState.entry :=
      congrFun (congrArg SealedRound.entry heq) b
    cases hst : w.store.state id b with
    | none =>
      rw [hst, Option.map_none] at hentry
      exact (Option.map_eq_none_iff.mp hentry.symm).symm
    | some state =>
      rw [hst, Option.map_some] at hentry
      obtain ⟨state', hst', heq'⟩ := Option.map_eq_some_iff.mp hentry.symm
      have hs := hsound.entries b state.entry (by simp [Round.view, hst])
      rw [hst', state.eq_of_entry hs rfl heq'.symm]
  | v2 id =>
    obtain ⟨round, hround, rfl⟩ := World.of_view_v2 hr
    obtain ⟨round', hround', heq⟩ := World.of_view_v2 hr'
    funext b
    have hentry : (w.store.submissionV2 id b).map SubmissionStateV2.entry =
        (w'.store.submissionV2 id b).map SubmissionStateV2.entry :=
      congrFun (congrArg SealedRound.entry heq) b
    exact Option.map_injective (fun _ _ h => SubmissionStateV2.eq_of_entry h) hentry

/-- A cleared auction has the winner of the round, or none and is voided. -/
theorem World.Sound.clear_selects (hw : w.Sound host config tx.timestamp.toNat)
    (hself : tx.auths host.currentContract = false) (hr : w.view key = some r)
    (hp : r.terms.payment.isSome = true) {o : Outcome}
    (h : invoke host tx key.clear w = .ok o) :
    ∃ r', o.world.view key = some r' ∧
      ((∃ b v, r.Selects b v ∧ o.value = .winner (some b) ∧ r'.status = .Cleared ∧
          r'.winner = some b ∧ r'.winningBid = v) ∨
        ((∀ b ∈ r.bidders, r.validBid b = none) ∧ o.value = .winner none ∧
          r'.status = .Voided)) := by
  obtain ⟨q, r', hq, hr', hstep⟩ := hw.invoke_step hself h (clear_on key o.value).1
    (clear_on key o.value).2
  obtain rfl : r = q := Option.some_inj.mp (hr.symm.trans hq)
  have hvalue := hw.clear_value h hr
  rw [if_pos hp] at hvalue
  generalize o.transfers = ts at hstep
  refine ⟨r', hr', ?_⟩
  cases hstep with
  | clear b v _ _ _ hbest =>
    rw [hbest] at hvalue
    exact Or.inl ⟨b, v, SealedRound.selects_of_best hbest, hvalue, rfl, rfl, rfl⟩
  | clearVoid _ _ _ hbest =>
    rw [hbest] at hvalue
    refine Or.inr ⟨FirstBest.scan_eq_none.mp hbest, hvalue, ?_⟩
    unfold SealedRound.voided
    split <;> rfl
  | finalize _ _ hnone => simp [hnone] at hp

/-- **Winner and order of the reveals.** -/
theorem winner_correct {c₀ c : Chain} {events : List Event} (hd : Deployed config c₀)
    (h : Run host c₀ events c) (hauction : c.world.Auction key) (hr : c.world.view key = some r) :
    (r.bidders = ((commitsOn key events).map CommitRecord.bidder).eraseDups ∧
      ∀ tx o, c.now ≤ tx.timestamp → tx.auths host.currentContract = false →
        invoke host tx key.clear c.world = .ok o → ∃ r', o.world.view key = some r' ∧
          ((∃ b v, r.Selects b v ∧ o.value = .winner (some b) ∧ r'.status = .Cleared ∧
              r'.winner = some b ∧ r'.winningBid = v) ∨
            ((∀ b ∈ r.bidders, r.validBid b = none) ∧ o.value = .winner none ∧
              r'.status = .Voided))) ∧
    (r.status = .Revealing → ∀ events₁ c₁ r₁ events₂ c₂ r₂,
      Run host c events₁ c₁ → c₁.world.view key = some r₁ → r₁.status = .Revealing →
      Run host c events₂ c₂ → c₂.world.view key = some r₂ → r₂.status = .Revealing →
      (∀ b, (openedBy (some r₁) b).isSome = (openedBy (some r₂) b).isSome) →
      host.CollisionFree (revealsOn key events₁ ++ revealsOn key events₂) →
      c₁.world.SameRecords c₂.world key ∧
      (∀ tx₁ o₁ tx₂ o₂, c₁.now ≤ tx₁.timestamp → tx₁.auths host.currentContract = false →
        invoke host tx₁ key.clear c₁.world = .ok o₁ →
        c₂.now ≤ tx₂.timestamp → tx₂.auths host.currentContract = false →
        invoke host tx₂ key.clear c₂.world = .ok o₂ →
        o₁.value = o₂.value ∧ o₁.transfers = o₂.transfers ∧
          o₁.world.view key = o₂.world.view key) ∧
      ∀ tx, c₁.now ≤ tx.timestamp → c₂.now ≤ tx.timestamp →
        tx.auths host.currentContract = false →
        ((∃ o, invoke host tx key.clear c₁.world = .ok o) ↔
          ∃ o, invoke host tx key.clear c₂.world = .ok o)) := by
  have hs := h.sound hd.chain_sound
  have hp := (hs.world.auction_iff hr).mp hauction
  refine ⟨⟨((Run.follows hd h key).2 r hr).bidders, ?_⟩, ?_⟩
  · intro tx o hnow hself ho
    exact (hs.world.later (UInt64.le_iff_toNat_le.mp hnow)).clear_selects hself hr hp ho
  · intro hst events₁ c₁ r₁ events₂ c₂ r₂ h₁ hr₁ hst₁ h₂ hr₂ hst₂ hsame hfree
    have hs₁ := h₁.sound hs
    have hs₂ := h₂.sound hs
    have hf₁ := Run.funded hd (h.append h₁)
    have hf₂ := Run.funded hd (h.append h₂)
    obtain rfl : r₁ = r₂ := Run.reveal_order hs hr (by simp [hst]) h₁ h₂ hr₁ hst₁ hr₂ hst₂
      hsame hfree
    refine ⟨hs₁.world.same_records hs₂.world hr₁ hr₂, ?_, ?_⟩
    · intro tx₁ o₁ tx₂ o₂ hnow₁ hself₁ ho₁ hnow₂ hself₂ ho₂
      have hw₁ := hs₁.world.later (UInt64.le_iff_toNat_le.mp hnow₁)
      have hw₂ := hs₂.world.later (UInt64.le_iff_toNat_le.mp hnow₂)
      obtain ⟨q₁, q₁', hq₁, hq₁', hstep₁⟩ := hw₁.invoke_step hself₁ ho₁
        (clear_on key o₁.value).1 (clear_on key o₁.value).2
      obtain ⟨q₂, q₂', hq₂, hq₂', hstep₂⟩ := hw₂.invoke_step hself₂ ho₂
        (clear_on key o₂.value).1 (clear_on key o₂.value).2
      obtain rfl : r₁ = q₁ := Option.some_inj.mp (hr₁.symm.trans hq₁)
      obtain rfl : r₁ = q₂ := Option.some_inj.mp (hr₂.symm.trans hq₂)
      obtain ⟨hts, hq⟩ := hstep₁.clear_unique hstep₂
      refine ⟨?_, hts, by rw [hq₁', hq₂', hq]⟩
      rw [hw₁.clear_value ho₁ hr₁, hw₂.clear_value ho₂ hr₂]
    · intro tx hnow₁ hnow₂ hself
      constructor
      · rintro ⟨o, ho⟩
        exact hf₂.clear_again hs₁ hs₂ hr₁ hr₂ hnow₁ hnow₂ hself ho
      · rintro ⟨o, ho⟩
        exact hf₁.clear_again hs₂ hs₁ hr₂ hr₁ hnow₂ hnow₁ hself ho

/-- The sample reveals in either order, one of them after an early attempt to
clear. -/
theorem winner_correct_sample : ∃ d events c₁ events₁ c₂ events₂,
    Run Sample.host Sample.deployed events d ∧ Run Sample.host d events₁ c₁ ∧
    Run Sample.host d events₂ c₂ ∧
    revealsOn (.v1 1) events₁ = [Sample.preimage 30, Sample.preimage 20] ∧
    revealsOn (.v1 1) events₂ = [Sample.preimage 20, Sample.preimage 30] ∧
    c₁.world.SameRecords c₂.world (.v1 1) := by
  obtain ⟨d, events, c₁, events₁, c₂, events₂, h, h₁, h₂, hvalue⟩ := Chain.exec_fork Sample.host
    Sample.deployed Sample.opened Sample.reveals
    (⟨Sample.tx Sample.bob 1061, .clear 1⟩ :: Sample.reveals.reverse)
    (fun d _ c₁ events₁ c₂ events₂ => decide (
      (d.world.view (.v1 1)).map SealedRound.status = some .Revealing ∧
      (c₁.world.view (.v1 1)).map Sample.board = some ⟨.Revealing,
        [(Sample.alice, some (Sample.preimage 30)), (Sample.bob, some (Sample.preimage 20))]⟩ ∧
      (c₂.world.view (.v1 1)).map Sample.board = (c₁.world.view (.v1 1)).map Sample.board ∧
      revealsOn (.v1 1) events₁ = [Sample.preimage 30, Sample.preimage 20] ∧
      revealsOn (.v1 1) events₂ = [Sample.preimage 20, Sample.preimage 30])) true
    (by decide +kernel)
  obtain ⟨hd, hv₁, hv₂, hon₁, hon₂⟩ := of_decide_eq_true hvalue
  obtain ⟨r, hr, hst⟩ := Option.map_eq_some_iff.mp hd
  obtain ⟨r₁, hr₁, hboard₁⟩ := Option.map_eq_some_iff.mp hv₁
  obtain ⟨r₂, hr₂, hboard₂⟩ := Option.map_eq_some_iff.mp (hv₂.trans hv₁)
  have hst₁ : r₁.status = .Revealing := congrArg Sample.Board.status hboard₁
  have hst₂ : r₂.status = .Revealing := congrArg Sample.Board.status hboard₂
  have hbids := congrArg Sample.Board.bids (hboard₁.trans hboard₂.symm)
  have hs := h.sound Sample.deployed_ok.chain_sound
  have hauction : d.world.Auction (.v1 1) := (hs.world.of_view_v1 hr).imp fun _ h => h.1
  have hfree : Sample.host.CollisionFree [Sample.preimage 30, Sample.preimage 20,
      Sample.preimage 20, Sample.preimage 30] := by
    unfold Host.CollisionFree
    decide +kernel
  have hlist : r₁.bidders = r₂.bidders := by
    have hfst := congrArg (List.map Prod.fst) hbids
    simpa [Sample.board, Function.comp_def] using hfst
  have hsame : ∀ b, (openedBy (some r₁) b).isSome = (openedBy (some r₂) b).isSome := by
    intro b
    by_cases hb : b ∈ r₁.bidders
    · have hopened := List.map_inj_left.mp (hbids.trans (by rw [Sample.board, ← hlist])) b hb
      rw [(Prod.mk.inj hopened).2]
    · have hnone₁ : r₁.entry b = none := by
        simpa using mt (((h₁.sound hs).world.views _ r₁ hr₁).entered b).mpr hb
      rw [hlist] at hb
      have hnone₂ : r₂.entry b = none := by
        simpa using mt (((h₂.sound hs).world.views _ r₂ hr₂).entered b).mpr hb
      simp [openedBy, hnone₁, hnone₂]
  refine ⟨d, events, c₁, events₁, c₂, events₂, h, h₁, h₂, hon₁, hon₂, ?_⟩
  exact ((winner_correct Sample.deployed_ok h hauction hr).2 hst events₁ c₁ r₁ events₂ c₂ r₂
    h₁ hr₁ hst₁ h₂ hr₂ hst₂ hsame (by rw [hon₁, hon₂]; exact hfree)).1

/-! ## Copies -/

/-- Two opened entries with one commitment compete with the same amount. -/
theorem SealedRound.Sound.same_bid (h : r.Sound host config now) {a b : Address} {e e' : Entry}
    (he : r.entry a = some e) (he' : r.entry b = some e') {x : Bytes} (hx : e.opened = some x)
    (hx' : e'.opened = some x) : r.validBid a = r.validBid b := by
  obtain ⟨-, hreads, -, hvalid⟩ := (h.entries a e he).opened x hx
  obtain ⟨-, hreads', -, hvalid'⟩ := (h.entries b e' he').opened x hx'
  have hamount := hreads.unique hreads'
  simp only [SealedRound.validBid, he, he', Option.bind_some, Entry.validBid, hvalid, hvalid',
    hamount]

/-- The last commit of `a` came before `b` first committed the same, and it is
what `b` committed last. -/
def CopiedFrom (a b : Address) (commits : List CommitRecord) : Prop :=
  ∃ pre record post, commits = pre ++ record :: post ∧ record.bidder = a ∧
    (∀ q ∈ post, q.bidder ≠ a) ∧
    (∀ q ∈ pre, q.bidder = b → q.commitment ≠ record.commitment) ∧
    lastCommit b commits = some ⟨b, record.commitment, record.escrow⟩

/-- **A copy does not beat a revealed bid that entered before it.** -/
theorem copy_never_wins {c₀ c : Chain} {events : List Event} (hd : Deployed config c₀)
    (h : Run host c₀ events c) (hauction : c.world.Auction key) (hr : c.world.view key = some r)
    {a b : Address} (hab : a ≠ b) {record copy : CommitRecord}
    (ha : lastCommit a (commitsOn key events) = some record)
    (hb : lastCommit b (commitsOn key events) = some copy)
    (hsame : copy.commitment = record.commitment)
    (hfirst : EnteredBefore a b (commitsOn key events))
    (hopened : (openedBy (some r) a).isSome = true)
    (hfree : host.CollisionFree (revealsOn key events)) (hnow : c.now ≤ tx.timestamp)
    (hself : tx.auths host.currentContract = false) {o : Outcome}
    (ho : invoke host tx key.clear c.world = .ok o) :
    o.value ≠ .winner (some b) ∧ ∀ r', o.world.view key = some r' → r'.winner ≠ some b := by
  have hs := h.sound hd.chain_sound
  have hsound := hs.world.views key r hr
  have hfollows := (Run.follows hd h key).2 r hr
  obtain ⟨e, he, hcommit, -⟩ := hfollows.commitment ha
  obtain ⟨e', he', hcommit', -⟩ := hfollows.commitment hb
  -- every preimage in the round was offered by a reveal of the run
  have hstart : c₀.world.view key = none := by
    cases key <;> simp [World.view, hd.1, Store.empty]
  have hrevealed : ∀ {d : Address} {x : Bytes}, openedBy (some r) d = some x →
      x ∈ revealsOn key events := by
    intro d x hx
    rw [← hr] at hx
    exact (Run.opened h hd.chain_sound hx).resolve_left (by simp [hstart, openedBy])
  obtain ⟨x, hx⟩ := Option.isSome_iff_exists.mp hopened
  have hxe : e.opened = some x := by simpa [openedBy, he] using hx
  have hnot : ∀ v, ¬ r.Selects b v := by
    intro v hsel
    obtain ⟨d, hd', -, hvalid, -⟩ := hsound.validBid ((hs.world.auction_iff hr).mp hauction)
      hsel.bid
    obtain rfl : e' = d := Option.some_inj.mp (he'.symm.trans hd')
    obtain ⟨y, hy⟩ : ∃ y, e'.opened = some y := by
      cases hopen : e'.opened with
      | none =>
        rw [((hsound.entries b e' he').unopened hopen).2] at hvalid
        cases hvalid
      | some y => exact ⟨y, rfl⟩
    have hyo : openedBy (some r) b = some y := by simpa [openedBy, he'] using hy
    have hhash : host.sha256 x = host.sha256 y := by
      rw [((hsound.entries a e he).opened x hxe).1, ((hsound.entries b e' he').opened y hy).1,
        hcommit, hcommit', hsame]
    obtain rfl : x = y := hfree x (hrevealed hx) y (hrevealed hyo) hhash
    have hbid := (hsound.same_bid he he' hxe hy).trans hsel.bid
    have hmem : a ∈ r.bidders := (hsound.entered a).mpr (by simp [he])
    have hle := hsel.first a hmem hbid
    have hlt := hfollows.entered_before hab hfirst
    omega
  have hw := hs.world.later (UInt64.le_iff_toNat_le.mp hnow)
  obtain ⟨q, hq, hcase⟩ := hw.clear_selects hself hr ((hs.world.auction_iff hr).mp hauction) ho
  rcases hcase with ⟨w, v, hsel, hvalue, -, hwin, -⟩ | ⟨-, hvalue, hvoid⟩
  · refine ⟨fun hcopy => ?_, fun r' hr' hcopy => ?_⟩
    · obtain rfl : w = b := by
        rw [hvalue, Value.winner.injEq, Option.some_inj] at hcopy
        exact hcopy
      exact hnot v hsel
    · obtain rfl : q = r' := Option.some_inj.mp (hq.symm.trans hr')
      obtain rfl : w = b := Option.some_inj.mp (hwin.symm.trans hcopy)
      exact hnot v hsel
  · refine ⟨by simp [hvalue], fun r' hr' hcopy => ?_⟩
    obtain rfl : q = r' := Option.some_inj.mp (hq.symm.trans hr')
    have hsound' := (invoke_sound hw hself ho).views key q hq
    rw [(hsound'.pending (Or.inr (Or.inr hvoid))).1] at hcopy
    cases hcopy

/-- Bob copies after Alice entered, and both are revealed. -/
theorem copy_never_wins_sample : ∃ c events o, Run Sample.host Sample.deployed events c ∧
    invoke Sample.host (Sample.tx Sample.bob 1101) (.clear 1) c.world = .ok o ∧
    o.value ≠ .winner (some Sample.bob) := by
  obtain ⟨c, events, hrun, hvalue⟩ := Chain.exec_reaches Sample.host Sample.deployed
    (Sample.copied [] [Sample.disclose Sample.alice 30, Sample.disclose Sample.bob 30])
    (fun c events => decide (
      commitsOn (.v1 1) events = [⟨Sample.alice, Sample.commitment 30, 50⟩,
        ⟨Sample.bob, Sample.commitment 30, 50⟩] ∧
      revealsOn (.v1 1) events = [Sample.preimage 30, Sample.preimage 30] ∧
      (openedBy (c.world.view (.v1 1)) Sample.alice).isSome = true ∧
      (invoke Sample.host (Sample.tx Sample.bob 1101) (.clear 1) c.world).toOption.map
        Outcome.value = some (.winner (some Sample.alice)) ∧
      c.now ≤ 1101)) true (by decide +kernel)
  obtain ⟨hcommits, hreveals, hopened, hok, hnow⟩ := of_decide_eq_true hvalue
  obtain ⟨r, hr⟩ : ∃ r, c.world.view (.v1 1) = some r := by
    cases hv : c.world.view (.v1 1) with
    | none => simp [hv, openedBy] at hopened
    | some r => exact ⟨r, rfl⟩
  obtain ⟨o, ho, -⟩ := invoke_of_value hok
  have hs := hrun.sound Sample.deployed_ok.chain_sound
  refine ⟨c, events, o, hrun, ho, ?_⟩
  have halice : lastCommit Sample.alice (commitsOn (.v1 1) events) =
      some ⟨Sample.alice, Sample.commitment 30, 50⟩ := by
    rw [hcommits]
    decide +kernel
  have hbob : lastCommit Sample.bob (commitsOn (.v1 1) events) =
      some ⟨Sample.bob, Sample.commitment 30, 50⟩ := by
    rw [hcommits]
    decide +kernel
  have hauction : c.world.Auction (.v1 1) := (hs.world.of_view_v1 hr).imp fun _ h => h.1
  refine (copy_never_wins Sample.deployed_ok hrun hauction hr (by decide) halice hbob rfl
    ?_ ?_ ?_ hnow rfl ho).1
  · rw [hcommits]
    exact ⟨[], _, _, rfl, rfl, by simp⟩
  · rw [← hr]
    exact hopened
  · rw [hreveals]
    unfold Host.CollisionFree
    decide +kernel

/-- Bob wins with the commitment of Alice: by taking a place in the list before
her, or by being the only one revealed. -/
theorem copy_wins :
    (∃ c events o, Run Sample.host Sample.deployed events c ∧
      CopiedFrom Sample.alice Sample.bob (commitsOn (.v1 1) events) ∧
      (openedBy (c.world.view (.v1 1)) Sample.alice).isSome = true ∧
      invoke Sample.host (Sample.tx Sample.bob 1101) (.clear 1) c.world = .ok o ∧
      o.value = .winner (some Sample.bob)) ∧
    ∃ c events o, Run Sample.host Sample.deployed events c ∧
      CopiedFrom Sample.alice Sample.bob (commitsOn (.v1 1) events) ∧
      EnteredBefore Sample.alice Sample.bob (commitsOn (.v1 1) events) ∧
      invoke Sample.host (Sample.tx Sample.bob 1101) (.clear 1) c.world = .ok o ∧
      o.value = .winner (some Sample.bob) := by
  constructor
  · obtain ⟨c, events, hrun, hvalue⟩ := Chain.exec_reaches Sample.host Sample.deployed
      (Sample.copied [Sample.bid Sample.bob 1005 20]
        [Sample.disclose Sample.alice 30, Sample.disclose Sample.bob 30])
      (fun c events => decide (
        commitsOn (.v1 1) events = [⟨Sample.bob, Sample.commitment 20, 50⟩,
          ⟨Sample.alice, Sample.commitment 30, 50⟩, ⟨Sample.bob, Sample.commitment 30, 50⟩] ∧
        (openedBy (c.world.view (.v1 1)) Sample.alice).isSome = true ∧
        (invoke Sample.host (Sample.tx Sample.bob 1101) (.clear 1) c.world).toOption.map
          Outcome.value = some (.winner (some Sample.bob)))) true (by decide +kernel)
    obtain ⟨hcommits, hopened, hvalue⟩ := of_decide_eq_true hvalue
    obtain ⟨o, ho, hwin⟩ := invoke_of_value hvalue
    refine ⟨c, events, o, hrun, ?_, hopened, ho, hwin⟩
    rw [hcommits]
    refine ⟨[⟨Sample.bob, Sample.commitment 20, 50⟩], ⟨Sample.alice, Sample.commitment 30, 50⟩,
      [⟨Sample.bob, Sample.commitment 30, 50⟩], rfl, rfl, ?_, ?_, ?_⟩ <;> decide +kernel
  · obtain ⟨c, events, hrun, hvalue⟩ := Chain.exec_reaches Sample.host Sample.deployed
      (Sample.copied [] [Sample.disclose Sample.bob 30])
      (fun c events => decide (
        commitsOn (.v1 1) events = [⟨Sample.alice, Sample.commitment 30, 50⟩,
          ⟨Sample.bob, Sample.commitment 30, 50⟩] ∧
        (invoke Sample.host (Sample.tx Sample.bob 1101) (.clear 1) c.world).toOption.map
          Outcome.value = some (.winner (some Sample.bob)))) true (by decide +kernel)
    obtain ⟨hcommits, hvalue⟩ := of_decide_eq_true hvalue
    obtain ⟨o, ho, hwin⟩ := invoke_of_value hvalue
    refine ⟨c, events, o, hrun, ?_, ?_, ho, hwin⟩
    · rw [hcommits]
      refine ⟨[], ⟨Sample.alice, Sample.commitment 30, 50⟩,
        [⟨Sample.bob, Sample.commitment 30, 50⟩], rfl, rfl, ?_, ?_, ?_⟩ <;> decide +kernel
    · rw [hcommits]
      exact ⟨[], _, _, rfl, rfl, by simp⟩

end

end SubRosa
