import SubRosa.Auction.Lifecycle
import SubRosa.Auction.Opening
import SubRosa.Auction.Script

/-!
# What is permanent

A round only moves forward, and what its creation fixed stays fixed: its
terms, its policies, the order of its bidders, the sealed submissions from the
opening on and the outcome from clearing on.
-/

namespace SubRosa

open MachineInt Invocation

/-- The stored round and its partner policy are those of an earlier world, up
to the progress of the round. -/
def World.SameTerms (w w' : World) : RoundKey → Prop
  | .v1 id => ∀ round, w.store.round id = some round →
      ∃ round', w'.store.round id = some round' ∧ round.Continues round'
  | .v2 id => (∀ round, w.store.roundV2 id = some round →
      ∃ round', w'.store.roundV2 id = some round' ∧ round.Continues round') ∧
      w'.store.policyV2 id = w.store.policyV2 id

section

variable {host : Host} {config : GlobalConfig} {tx : Transaction} {w : World} {key : RoundKey}
  {r : SealedRound} {c c' : Chain} {events : List Event}

/-- The policies of a round that exists stay as they are. -/
theorem Step.policies {e : Event} (h : Step host c e c') (hs : c.Sound host config)
    (hr : c.world.view key = some r) :
    c'.world.store.policyV2 key.id = c.world.store.policyV2 key.id ∧
      (e ≠ .revealStateLost key.id → (c'.world.store.revealV3 key.id).map RevealStateV3.policy =
        (c.world.store.revealV3 key.id).map RevealStateV3.policy) := by
  cases h with
  | called hnow hself hcall =>
    have hw := hs.world.later (UInt64.le_iff_toNat_le.mp hnow)
    obtain ⟨key', -, href⟩ := invoke_refines hw hself hcall
    split at href
    · exact ⟨congrFun href.evolves.policyV2 key.id, fun _ => href.evolves.opening key.id⟩
    · have hused := hw.key_used hr
      have hother : RoundKey.v2 key.id ≠ key' := by
        rintro rfl
        have hnext := href.grows.next
        simp only [RoundKey.id] at hnext hused
        omega
      exact ⟨href.grows.policyV2 key.id hother, fun _ => by
        rw [← href.grows.revealV3 key.id hother]⟩
  | failed => exact ⟨rfl, fun _ => rfl⟩
  | outside => exact ⟨rfl, fun _ => rfl⟩
  | revealStateLost id =>
    refine ⟨rfl, fun hne => ?_⟩
    have hid : key.id ≠ id := by
      rintro rfl
      exact hne rfl
    have hsame : (c.world.loseRevealState id).store.revealV3 key.id =
        c.world.store.revealV3 key.id := Function.update_of_ne hid ..
    show ((c.world.loseRevealState id).store.revealV3 key.id).map _ = _
    rw [hsame]

theorem Run.policies (h : Run host c events c') (hs : c.Sound host config)
    (hr : c.world.view key = some r) :
    c'.world.store.policyV2 key.id = c.world.store.policyV2 key.id ∧
      (PolicyKept key.id events → (c'.world.store.revealV3 key.id).map RevealStateV3.policy =
        (c.world.store.revealV3 key.id).map RevealStateV3.policy) := by
  induction h with
  | nil => exact ⟨rfl, fun _ => rfl⟩
  | snoc hrun hstep ih =>
    obtain ⟨q, hq, -⟩ := Run.terms hrun hs hr
    obtain ⟨hpolicy, hreveal⟩ := Step.policies hstep (Run.sound hrun hs) hq
    refine ⟨hpolicy.trans ih.1, fun hkept => ?_⟩
    obtain ⟨hevents, he⟩ := hkept.snoc
    exact (hreveal he).trans (ih.2 hevents)

/-- The seals of a round that left `Open` keep their payloads. -/
theorem World.Sound.invoke_sealOf (hw : w.Sound host config tx.timestamp.toNat)
    (hself : tx.auths host.currentContract = false) {call : Call} {o : Outcome}
    (h : invoke host tx call w = .ok o) (hr : w.view key = some r) (hopen : r.status ≠ .Open) :
    o.world.sealOf key = w.sealOf key := by
  obtain ⟨key', hkey, href⟩ := invoke_refines hw hself h
  funext b
  by_cases hk : key' = key
  · subst hk
    cases haction : call.action with
    | none =>
      rw [haction] at href
      have hfresh := (hw.fresh href.grows).1
      rw [hr] at hfresh
      cases hfresh
    | some action =>
      obtain ⟨q, q', hq, -, htrans⟩ := hw.invoke_step hself h hkey haction
      obtain rfl : r = q := Option.some_inj.mp (hr.symm.trans hq)
      -- only a commit or an opening writes seals, and both need an open round
      have hseals : ∀ {deadline : UInt64} {bidders : List Address}
          {old new : Address → Option SealEntry},
          SealsAfter ⟨host, tx⟩ deadline bidders old new action → new = old := by
        intro deadline bidders old new hafter
        generalize o.transfers = ts at htrans
        cases htrans with
        | commit _ _ _ hst => exact absurd hst hopen
        | opening hst => exact absurd hst hopen
        | reveal => exact hafter
        | clear => exact hafter
        | clearVoid => exact hafter
        | finalize => exact hafter
        | settle => exact hafter
        | void => exact hafter
      cases key' with
      | v1 id =>
        obtain ⟨_, _, _, seals, -, hstore, hafter⟩ := hw.writes_v1 hself h hkey haction
        simp only [World.sealOf, World.seals, hstore, Store.writeRound, Function.update_self,
          hseals hafter]
      | v2 id =>
        obtain ⟨_, _, _, seals, -, hstore, hafter⟩ := hw.writes_v2 hself h hkey haction
        simp only [World.sealOf, World.seals, hstore, Store.writeRoundV2, Function.update_self,
          hseals hafter]
  · split at href
    · cases key with
      | v1 id =>
        have hsame : o.world.store.sealed id = w.store.sealed id :=
          href.evolves.sealed id (Ne.symm hk)
        simp only [World.sealOf, World.seals, hsame]
      | v2 id =>
        have hsame : o.world.store.sealedV2 id = w.store.sealedV2 id :=
          href.evolves.sealedV2 id (Ne.symm hk)
        simp only [World.sealOf, World.seals, hsame]
    · have hsealed : o.world.store.sealed = w.store.sealed := href.grows.sealed
      have hsealedV2 : o.world.store.sealedV2 = w.store.sealedV2 := href.grows.sealedV2
      cases key with
      | v1 id => simp only [World.sealOf, World.seals, hsealed]
      | v2 id => simp only [World.sealOf, World.seals, hsealedV2]

theorem Run.sealOf (h : Run host c events c') (hs : c.Sound host config)
    (hr : c.world.view key = some r) (hopen : r.status ≠ .Open) :
    c'.world.sealOf key = c.world.sealOf key := by
  induction h with
  | nil => rfl
  | snoc hrun hstep ih =>
    have hd := Run.sound hrun hs
    obtain ⟨q, hq, hnot⟩ := Run.not_open hrun hs hr hopen
    refine Eq.trans ?_ ih
    cases hstep with
    | called hnow hself hcall =>
      exact (hd.world.later (UInt64.le_iff_toNat_le.mp hnow)).invoke_sealOf hself hcall hq hnot
    | failed => rfl
    | outside => cases key <;> rfl
    | revealStateLost => cases key <;> rfl

/-- No call works on a terminal round. -/
theorem World.Sound.terminal (hw : w.Sound host config tx.timestamp.toNat)
    (hself : tx.auths host.currentContract = false) {call : Call} {o : Outcome}
    (h : invoke host tx call w = .ok o) (hr : w.view key = some r) (hst : r.status.Terminal) :
    call.key o.value ≠ some key := by
  intro hkey
  obtain ⟨key', hkey', href⟩ := invoke_refines hw hself h
  obtain rfl : key = key' := Option.some_inj.mp (hkey.symm.trans hkey')
  split at href
  · obtain ⟨q, q', hq, -, hstep⟩ := href.step
    obtain rfl : r = q := Option.some_inj.mp (hr.symm.trans hq)
    exact hstep.not_terminal hst
  · have hfresh := (hw.fresh href.grows).1
    rw [hr] at hfresh
    cases hfresh

theorem SealedRound.Next.terminal {s s' : Status} (h : r.Next s s') : ¬ s.Terminal := by
  cases h <;> simp [Status.Terminal]

/-- What a later stage `q` of a round still has of it. -/
structure SealedRound.Later (r q : SealedRound) : Prop where
  bidders : r.bidders <+: q.bidders
  sealed : r.status ≠ .Open → q.status ≠ .Open ∧ q.bidders = r.bidders ∧ q.pledge = r.pledge
  outcome : r.status = .Cleared ∨ r.status.Terminal → (q.status = .Cleared ∨ q.status.Terminal) ∧
    q.winner = r.winner ∧ q.winningBid = r.winningBid
  terminal : r.status.Terminal → q.status = r.status

theorem SealedRound.Later.refl (r : SealedRound) : r.Later r :=
  ⟨List.prefix_rfl, fun hnot => ⟨hnot, rfl, rfl⟩, fun hst => ⟨hst, rfl, rfl⟩, fun _ => rfl⟩

theorem SealedRound.Later.step {q q' : SealedRound} (h : r.Later q) (hp : q.Progress q') :
    r.Later q' where
  bidders := h.bidders.trans hp.bidders
  sealed hnot := by
    obtain ⟨hqnot, hqbidders, hqpledge⟩ := h.sealed hnot
    obtain ⟨hbidders, hpledge⟩ := hp.sealed hqnot
    exact ⟨hp.stays (P := (· ≠ .Open)) (fun _ _ _ _ hnext => hnext.not_open) hqnot,
      hbidders.trans hqbidders, hpledge.trans hqpledge⟩
  outcome hst := by
    obtain ⟨hqst, hqwinner, hqbid⟩ := h.outcome hst
    have hnot : q.status ≠ .Revealing := by
      rcases hqst with hqst | hqst <;> intro heq <;> simp [heq, Status.Terminal] at hqst
    obtain ⟨hwinner, hbid⟩ := hp.outcome.resolve_right fun h => hnot h.1
    refine ⟨hp.stays (P := fun s => s = .Cleared ∨ s.Terminal) ?_ hqst,
      hwinner.trans hqwinner, hbid.trans hqbid⟩
    intro q s s' hs hnext
    cases hnext <;> simp_all [Status.Terminal]
  terminal hst := by
    rcases hp.status with heq | hnext
    · rw [heq, h.terminal hst]
    · exact absurd (h.terminal hst ▸ hst) hnext.terminal

/-- **Lifecycle and frame.** -/
theorem lifecycle {c₀ : Chain} (hd : Deployed config c₀) (h : Run host c₀ events c)
    (hr : c.world.view key = some r) :
    (∀ e c', Step host c e c' → ∃ r', c'.world.view key = some r' ∧
      (r'.status = r.status ∨ r.Next r.status r'.status) ∧
      (r'.winner = r.winner ∧ r'.winningBid = r.winningBid ∨
        r.status = .Revealing ∧ r'.status = .Cleared)) ∧
    (r.terms.payment = none ↔ ¬ c.world.Auction key) ∧
    (r.status.Terminal → ∀ tx call o, c.now ≤ tx.timestamp →
      tx.auths host.currentContract = false → invoke host tx call c.world = .ok o →
      call.key o.value ≠ some key) ∧
    (∀ events' c', Run host c events' c' → ∃ r', c'.world.view key = some r' ∧
      c.world.SameTerms c'.world key ∧
      (PolicyKept key.id events' → (c'.world.store.revealV3 key.id).map RevealStateV3.policy =
        (c.world.store.revealV3 key.id).map RevealStateV3.policy) ∧
      r.bidders <+: r'.bidders ∧
      (r.status ≠ .Open → r'.bidders = r.bidders ∧ r'.pledge = r.pledge ∧
        c'.world.sealOf key = c.world.sealOf key) ∧
      (r.status = .Cleared ∨ r.status.Terminal →
        r'.winner = r.winner ∧ r'.winningBid = r.winningBid) ∧
      (r.status.Terminal → r'.status = r.status)) ∧
    (r.status = .Open ∨ r.status = .Revealing ∨ r.status = .Voided →
      r.winner = none ∧ r.winningBid = 0) ∧
    ∀ tx call c', Step host c (.failed tx call) c' → c'.world = c.world := by
  have hs := h.sound hd.chain_sound
  have hauction := hs.world.auction_iff hr
  refine ⟨?_, ?_, ?_, ?_, (hs.world.views key r hr).pending, ?_⟩
  · intro e c' hstep
    obtain ⟨r', hr', hprogress⟩ := Step.progress hstep hs hr
    exact ⟨r', hr', hprogress.status, hprogress.outcome⟩
  · rw [hauction, Option.not_isSome_iff_eq_none]
  · intro hst tx call o hnow hself ho
    exact (hs.world.later (UInt64.le_iff_toNat_le.mp hnow)).terminal hself ho hr hst
  · intro events' c' hrun
    obtain ⟨hpolicy, hreveal⟩ := Run.policies hrun hs hr
    obtain ⟨r', hr', hlater⟩ :=
      Run.keeps (fun q q' hq hp => SealedRound.Later.step hq hp) hrun hs hr
      (SealedRound.Later.refl r)
    refine ⟨r', hr', ?_, hreveal, hlater.bidders, fun hnot => ?_,
      fun hst => (hlater.outcome hst).2, hlater.terminal⟩
    · cases key with
      | v1 id => exact fun round hround => Run.round hrun hs hround
      | v2 id => exact ⟨fun round hround => Run.roundV2 hrun hs hround, hpolicy⟩
    · obtain ⟨-, hsame, hpledge⟩ := hlater.sealed hnot
      exact ⟨hsame, hpledge, Run.sealOf hrun hs hr hnot⟩
  · intro tx call c' hstep
    cases hstep with
    | failed => rfl

/-- The sample auction once it is settled. -/
theorem lifecycle_sample : ∃ c events r, Run Sample.host Sample.deployed events c ∧
    c.world.view (.v1 1) = some r ∧ r.status = .Settled ∧
    ∀ events' c', Run Sample.host c events' c' → ∃ r', c'.world.view (.v1 1) = some r' ∧
      r'.status = .Settled ∧ r'.winner = r.winner := by
  obtain ⟨c, events, hrun, hvalue⟩ := Chain.exec_reaches Sample.host Sample.deployed Sample.settled
    (fun c _ => (c.world.view (.v1 1)).map SealedRound.status) (some .Settled) (by decide +kernel)
  obtain ⟨r, hr, hst⟩ := Option.map_eq_some_iff.mp hvalue
  refine ⟨c, events, r, hrun, hr, hst, fun events' c' hrun' => ?_⟩
  have hterminal : r.status.Terminal := by
    rw [hst]
    trivial
  obtain ⟨r', hr', -, -, -, -, hwinner, hstatus⟩ :=
    (lifecycle Sample.deployed_ok hrun hr).2.2.2.1 events' c' hrun'
  exact ⟨r', hr', (hstatus hterminal).trans hst, (hwinner (Or.inr hterminal)).1⟩

end

end SubRosa
