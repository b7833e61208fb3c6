import SubRosa.Auction.Supervision
import SubRosa.Guarantees.Exits

/-!
# Owner-triggered opening

A third-version round is opened under the policy of its creation: by anybody
once its Drand round and its fallback are due, before the fallback only with
the authorisation of the operator. Without its record it can only be voided.
-/

namespace SubRosa

open MachineInt Invocation

/-- The opening record tells the history of the round. -/
structure RoundV2.Recorded (round : RoundV2) (state : RevealStateV3)
    (openings : List Transaction) : Prop where
  time : state.openedAt = openings.head?.map Transaction.timestamp
  opened : Opened openings round.status

section

variable {host : Host} {config : GlobalConfig} {c₀ c : Chain} {events : List Event}

/-- The fallback of a valid policy, in exact time. -/
theorem RevealPolicy.Valid.fallback {policy : RevealPolicy} {round deadline fallbackAt : UInt64}
    (h : policy.Valid (timeOfRound config round) deadline) (hr : round ≠ 0)
    (hp : policy = .OwnerTriggered fallbackAt) :
    exactTimeOfRound config round < fallbackAt.toNat ∧
      fallbackAt.toNat + 300 ≤ deadline.toNat := by
  subst hp
  obtain ⟨hfrom, hwindow⟩ := h
  have hexact := timeOfRound_exact hr hfrom
  have hlt := UInt64.lt_iff_toNat_lt.mp hfrom
  refine ⟨by omega, ?_⟩
  unfold checkedSub at hwindow
  split at hwindow
  · next hle =>
    have hmin : minRevealWindow.toNat = 300 := rfl
    rw [Option.getD_some, UInt64.le_iff_toNat_le, hmin,
      UInt64.toNat_sub_of_le _ _ (UInt64.le_iff_toNat_le.mpr hle)] at hwindow
    omega
  · have hzero : ¬ minRevealWindow ≤ 0 := by decide
    exact absurd hwindow hzero

/-- **Owner-triggered opening.** -/
theorem owner_opening (hd : Deployed config c₀) (h : Run host c₀ events c) {tx₀ : Transaction}
    {args : RoundArgsV2} {policy : RoundPolicyV3} {id : UInt64} {ts : List Transfer}
    (hmem : Event.called tx₀ (.createRoundV3 args policy) (.roundId id) ts ∈ events) :
    ∃ round, c.world.store.roundV2 id = some round ∧
      (∀ state, c.world.store.revealV3 id = some state → state.policy = policy.reveal ∧
        round.Recorded state (openingsOn (.v2 id) events)) ∧
      (PolicyKept id events → (c.world.store.revealV3 id).isSome = true) ∧
      (∀ tx ∈ openingsOn (.v2 id) events, policy.reveal.Allows config args tx) ∧
      (∀ fallbackAt, policy.reveal = .OwnerTriggered fallbackAt →
        exactTimeOfRound config args.revealRound < fallbackAt.toNat ∧
          fallbackAt.toNat + 300 ≤ args.revealDeadline.toNat) ∧
      (round.status = .Open → (c.world.store.revealV3 id).isSome = true →
        ∀ tx signature, c.now ≤ tx.timestamp → host.Verifies config args.revealRound signature →
          exactTimeOfRound config args.revealRound ≤ tx.timestamp.toNat →
          (∀ fallbackAt, policy.reveal = .OwnerTriggered fallbackAt → fallbackAt ≤ tx.timestamp) →
          tx.timestamp ≤ args.revealDeadline →
          ∃ o, invoke host tx (.openRevealV2 id signature) c.world = .ok o) ∧
      (c.world.store.revealV3 id = none →
        (∀ tx signature o, invoke host tx (.openRevealV2 id signature) c.world ≠ .ok o) ∧
        (round.status = .Open → ∀ tx : Transaction, c.now ≤ tx.timestamp →
          args.revealDeadline.toNat + 3600 < tx.timestamp.toNat → tx.Receives host →
          ∃ o, invoke host tx (.voidV2 id) c.world = .ok o)) := by
  have hs := h.sound hd.chain_sound
  obtain ⟨hup, hvalid⟩ := Run.upheld h hd.chain_sound hmem rfl
  obtain ⟨round, hround, ⟨status, bidders, winner, winningBid, hsame⟩, hopened⟩ := hup.stored
  have hview : c.world.view (.v2 id) = some (round.view (c.world.store.submissionV2 id)) :=
    World.view_roundV2 hround
  have hversion : round.protocolVersion = revealPolicyVersion := by rw [hsame]; rfl
  have hreveal : round.revealRound = args.revealRound := by rw [hsame]; rfl
  have hdeadline : round.revealDeadline = args.revealDeadline := by rw [hsame]; rfl
  refine ⟨round, hround, fun state hstate => ?_, fun hkept => ?_, fun tx htx => ?_,
    fun fallbackAt hp => ?_, fun hst hsome tx signature hnow hsig hdue hfallback hto => ?_,
    fun hnone => ⟨fun tx signature o ho => ?_, fun hst tx hnow ht hreceives => ?_⟩⟩
  · obtain ⟨hpolicy, htime⟩ := hup.record state hstate
    exact ⟨(Option.some_inj.mp hpolicy).symm, htime, hopened⟩
  · exact Run.policed hd h hkept round hround hversion
  · exact (hup.allowed tx htx).2 policy.reveal rfl
  · exact (hvalid policy.reveal rfl).fallback hup.scheduled.1 hp
  · have hbefore := (hs.world.views _ _ hview).beforeDrand
    have hdrand : (round.view (c.world.store.submissionV2 id)).terms.drandTime config =
        exactTimeOfRound config args.revealRound := by
      rw [← hreveal]
      rfl
    obtain ⟨state, hstate⟩ := Option.isSome_iff_exists.mp hsome
    refine hs.world.can_open hview hst (by omega) ?_ ?_ hsig ?_ ?_
    · rw [← hdeadline] at hto
      exact UInt64.le_iff_toNat_le.mp hto
    · rw [← hreveal]
      simp [World.drandRound, hround]
    · refine fun _ => ⟨fun R hR => ?_, fun state' fallbackAt hstate' hp => ?_⟩
      · have hR : some round.revealRound = some R := by simpa [World.drandRound, hround] using hR
        rw [← Option.some_inj.mp hR, hreveal]
        exact hdue
      · refine hfallback fallbackAt ?_
        rw [← hp]
        exact Option.some_inj.mp (hup.record state' hstate').1
    · exact fun _ _ _ => hsome
  · obtain ⟨a, hy, -⟩ := (yields_map ..).mp (invoke_eq_ok.mp ho)
    obtain ⟨-, -, hopens, -⟩ := (yields_openRevealV2 (hs.world.env tx) hround ..).mp hy
    obtain ⟨state, hstate, -⟩ := hopens hversion
    rw [hnone] at hstate
    cases hstate
  · have hle := UInt64.le_iff_toNat_le.mp hnow
    have hsound := (hs.world.views _ _ hview).later hle
    rw [← hdeadline] at ht
    have hpaid := hsound.paidBy_refunds
    obtain ⟨b, hb⟩ := (h.funded hd).pays hs hview hle (Transition.void hst ht) hpaid
      fun u hu => hreceives u (hpaid u hu).1
    exact hs.world.can_void hview hst ht hb

/-- Bob cannot open the sample round before its fallback, the operator can. -/
theorem owner_opening_sample : ∃ c events round state, Run Sample.host Sample.deployed events c ∧
    c.world.store.roundV2 1 = some round ∧ c.world.store.revealV3 1 = some state ∧
    (openingsOn (.v2 1) events).map Transaction.timestamp = [1100] ∧
    state.policy = .OwnerTriggered 1200 ∧
    round.Recorded state (openingsOn (.v2 1) events) ∧
    ∀ tx ∈ openingsOn (.v2 1) events, tx.auths Sample.operator = true := by
  obtain ⟨c, events, ts, hrun, hmem, hvalue⟩ := Chain.exec_reaches_first Sample.host
    Sample.deployed Sample.creation Sample.ownedOpening (.roundId 1)
    (fun c events => ((openingsOn (.v2 1) events).map Transaction.timestamp,
      (c.world.store.revealV3 1).isSome)) ([1100], true) (by decide +kernel)
  obtain ⟨htimes, hsome⟩ := Prod.mk.inj hvalue
  obtain ⟨state, hstate⟩ := Option.isSome_iff_exists.mp hsome
  obtain ⟨round, hround, hrecord, -, hallows, -⟩ := owner_opening Sample.deployed_ok hrun hmem
  refine ⟨c, events, round, state, hrun, hround, hstate, htimes, (hrecord state hstate).1,
    (hrecord state hstate).2, fun tx htx => ?_⟩
  have htime : tx.timestamp ∈ [1100] := htimes ▸ List.mem_map.mpr ⟨tx, htx, rfl⟩
  refine (hallows tx htx).owner 1200 rfl ?_
  rw [List.mem_singleton.mp htime]
  decide

end

end SubRosa
