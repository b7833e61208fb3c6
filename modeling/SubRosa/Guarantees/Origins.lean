import SubRosa.Guarantees.OwnerOpening

/-!
# Where rounds come from

Every structured round was created in the run, so what holds of the rounds that
a run creates holds of every round it leaves.
-/

namespace SubRosa

open MachineInt Invocation

/-- What a structured round, its policy and its opening record satisfy together. -/
structure RoundV2.Governed (host : Host) (config : GlobalConfig) (now : Nat) (round : RoundV2)
    (policy : Option RoundPolicyV2) (reveal : Option RevealStateV3)
    (submissions : Address → Option SubmissionStateV2) : Prop where
  sound : (round.view submissions).Sound host config now
  consistent : round.Consistent
  limits : round.maxParticipants ≠ 0 ∧ round.maxParticipants ≤ maxV2Participants
  obeys : ∀ p, policy = some p → round.Obeys p submissions
  required : round.protocolVersion = revealPolicyVersion → policy.isSome = true
  third : ∀ state, reveal = some state → round.protocolVersion = revealPolicyVersion
  unopened : ∀ state, reveal = some state → state.openedAt = none →
    round.status = .Open ∨ round.status = .Voided
  opened : ∀ state t, reveal = some state → state.openedAt = some t → round.status ≠ .Open ∧
    exactTimeOfRound config round.revealRound ≤ t.toNat ∧ t ≤ round.revealDeadline
  fallback : ∀ state fallbackAt, reveal = some state → state.policy = .OwnerTriggered fallbackAt →
    exactTimeOfRound config round.revealRound < fallbackAt.toNat ∧
      fallbackAt.toNat + 300 ≤ round.revealDeadline.toNat

/-- Every bidder of a governed round has an entry. -/
theorem RoundV2.Governed.entered {host : Host} {config : GlobalConfig} {now : Nat} {round : RoundV2}
    {policy : Option RoundPolicyV2} {reveal : Option RevealStateV3}
    {submissions : Address → Option SubmissionStateV2}
    (h : round.Governed host config now policy reveal submissions) {b : Address}
    (hb : b ∈ round.bidders) : ∃ state, submissions b = some state := by
  exact RoundV2.entered h.sound hb

section

variable {host : Host} {config : GlobalConfig} {c₀ c : Chain} {events : List Event} {id : UInt64}

/-- **Every structured round was created in the run.** -/
theorem Run.origin (hd : Deployed config c₀) (h : Run host c₀ events c) {round : RoundV2}
    (hround : c.world.store.roundV2 id = some round) :
    ∃ tx call ts creation, Event.called tx call (.roundId id) ts ∈ events ∧
      call.creation = some creation := by
  induction h generalizing round with
  | nil =>
    rw [hd.1] at hround
    cases hround
  | @snoc events d e d' hrun hstep ih =>
    have hearlier : ∀ old, d.world.store.roundV2 id = some old → ∃ tx call ts creation,
        Event.called tx call (.roundId id) ts ∈ events ++ [e] ∧ call.creation = some creation := by
      intro old hold
      obtain ⟨tx, call, ts, creation, hmem, hcreation⟩ := ih hold
      exact ⟨tx, call, ts, creation, List.mem_append_left _ hmem, hcreation⟩
    cases hstep with
    | @called tx call o hnow hself hcall =>
      have hw := (Run.sound hrun hd.chain_sound).world.later (UInt64.le_iff_toNat_le.mp hnow)
      obtain ⟨key, hkey, href⟩ := invoke_refines hw hself hcall
      split at href
      · obtain ⟨old, _, _, _, _, hold, -⟩ := href.roundV2_back hround
        exact hearlier old hold
      · next hnone =>
        by_cases hid : RoundKey.v2 id = key
        · subst hid
          obtain ⟨creation, hcreation, hvalue⟩ := Call.creation_of_key hnone hkey
          rw [hvalue]
          exact ⟨tx, call, o.transfers, creation, by simp, hcreation⟩
        · rw [href.grows.roundV2 id hid] at hround
          exact hearlier round hround
    | failed => exact hearlier round hround
    | outside => exact hearlier round hround
    | revealStateLost => exact hearlier round hround

/-- **Every structured round of a run is governed.** -/
theorem Run.governed (hd : Deployed config c₀) (h : Run host c₀ events c) {round : RoundV2}
    (hround : c.world.store.roundV2 id = some round) :
    round.Governed host config c.now.toNat (c.world.store.policyV2 id) (c.world.store.revealV3 id)
      (c.world.store.submissionV2 id) := by
  have hw := (h.sound hd.chain_sound).world
  have hregular := Run.regular hd h
  have hview : c.world.view (.v2 id) = some (round.view (c.world.store.submissionV2 id)) :=
    World.view_roundV2 hround
  obtain ⟨tx, call, ts, creation, hmem, hcreation⟩ := Run.origin hd h hround
  obtain ⟨hup, hvalid⟩ := Run.upheld h hd.chain_sound hmem hcreation
  generalize openingsOn (.v2 id) events = openings at hup
  obtain ⟨round', hround', ⟨_, _, _, _, hsame⟩, hopened⟩ := hup.stored
  obtain rfl : round = round' := Option.some_inj.mp (hround.symm.trans hround')
  have hscheduled : round.revealRound = creation.args.revealRound := by rw [hsame]; simp
  have hdeadline : round.revealDeadline = creation.args.revealDeadline := by rw [hsame]; simp
  refine ⟨hw.views _ _ hview, hw.consistent id round hround, hregular.limits id round hround,
    fun p => hregular.policies id round p hround, hregular.required id round hround,
    fun state hstate => ?_, fun state hstate hnone => ?_, fun state t hstate ht => ?_,
    fun state fallbackAt hstate hp => ?_⟩
  · have hversion := creation.round_third.mpr (by rw [(hup.record state hstate).1]; rfl)
    rw [hsame]
    exact hversion
  · have htime := (hup.record state hstate).2
    rw [hnone] at htime
    cases hopened with
    | never hnever => exact hnever
    | once tx hne => cases htime
  · have htime := (hup.record state hstate).2
    rw [ht] at htime
    cases hopened with
    | never => cases htime
    | once tx hne =>
      obtain rfl := Option.some_inj.mp htime
      have hallows := (hup.allowed tx List.mem_cons_self).2 state.policy (hup.record state hstate).1
      rw [hscheduled, hdeadline]
      exact ⟨hne, hallows.afterDrand, hallows.beforeDeadline⟩
  · obtain ⟨hpolicy, -⟩ := hup.record state hstate
    rw [hscheduled, hdeadline]
    exact (hvalid state.policy hpolicy).fallback hup.scheduled.1 hp

end

end SubRosa
