import SubRosa.Auction.Policies
import SubRosa.Guarantees.Permanence

/-!
# The bidder index and the policies

The list of bidders of a round and its records match in every reachable state,
within the limits, and both obey the policy the round was created with.
-/

namespace SubRosa

open MachineInt Invocation

/-- The list and the records of a round match. -/
structure RosterOk {S : Type} (bidders : List Address) (records : Address → Option S)
    (limit : Nat) : Prop where
  nodup : bidders.Nodup
  recorded : ∀ b, b ∈ bidders ↔ (records b).isSome = true
  limit : bidders.length ≤ limit

section

variable {host : Host} {config : GlobalConfig} {c₀ c : Chain} {events : List Event}

/-- The policy of a creation stays under the id that the creation returned. -/
theorem Run.created_policy (hs : c₀.Sound host config) (h : Run host c₀ events c)
    {tx : Transaction} {call : Call} {id : UInt64} {ts : List Transfer} {creation : Creation}
    (hmem : Event.called tx call (.roundId id) ts ∈ events)
    (hcreation : call.creation = some creation) :
    c.world.store.policyV2 id = creation.policy := by
  obtain ⟨_, _, a, b, -, hpre, hstep, hpost⟩ := Runs.Run.mem_step h hmem
  have ha := Run.sound hpre hs
  obtain ⟨hnow, hself, -, o, hcall, hvalue, -, hworld⟩ := hstep.call
  have hw := ha.world.later (UInt64.le_iff_toNat_le.mp hnow)
  obtain ⟨key, hkey, href⟩ := invoke_refines hw hself hcall
  have hk : key = .v2 id := by
    rw [hvalue] at hkey
    cases call <;> simp_all [Call.creation, Call.key]
  subst hk
  have hnone : call.action = none := by
    cases call <;> simp_all [Call.creation, Call.action]
  rw [hnone] at href
  obtain ⟨id', hid', hwrote⟩ := hw.creation_writes hcall hcreation
  obtain rfl : id = id' := Value.roundId.inj (hvalue.symm.trans hid')
  obtain ⟨r, hr, -⟩ := href.created
  have hr : b.world.view (.v2 id) = some r := hworld ▸ hr
  rw [show c.world.store.policyV2 id = b.world.store.policyV2 id from
    (Run.policies hpost (Step.sound hstep ha) hr).1, ← hworld]
  exact (hwrote.obeys (hw.fresh href.grows).2).1

/-- **Bidder index and policies.** -/
theorem roster (hd : Deployed config c₀) (h : Run host c₀ events c) :
    (∀ id round, c.world.store.round id = some round →
      RosterOk round.bidders (c.world.store.state id) 500) ∧
    (∀ id round, c.world.store.roundV2 id = some round →
      RosterOk round.bidders (c.world.store.submissionV2 id) round.maxParticipants.toNat ∧
      1 ≤ round.maxParticipants.toNat ∧ round.maxParticipants.toNat ≤ 25 ∧
      (round.mode = .ReceiptOnly → ∀ b state, c.world.store.submissionV2 id b = some state →
        state.escrow = 0) ∧
      (round.protocolVersion = revealPolicyVersion →
        (c.world.store.policyV2 id).isSome = true) ∧
      ∀ policy, c.world.store.policyV2 id = some policy →
        round.Obeys policy (c.world.store.submissionV2 id)) ∧
    ∀ tx call id ts creation, Event.called tx call (.roundId id) ts ∈ events →
      call.creation = some creation → c.world.store.policyV2 id = creation.policy := by
  have hw := (h.sound hd.chain_sound).world
  have hregular := Run.regular hd h
  refine ⟨fun id round hround => ?_, fun id round hround => ?_,
    fun tx call id ts creation hmem hcreation => ?_⟩
  · have hview : c.world.view (.v1 id) = some (round.view config (c.world.store.state id)) :=
      hw.view_round hround
    have hsound := hw.views _ _ hview
    refine ⟨hsound.nodup, fun b => ?_, hsound.capacity⟩
    have hentered := hsound.entered b
    simpa [Round.view] using hentered
  · have hview : c.world.view (.v2 id) = some (round.view (c.world.store.submissionV2 id)) :=
      World.view_roundV2 hround
    have hsound := hw.views _ _ hview
    obtain ⟨hpositive, hmax⟩ := hregular.limits id round hround
    refine ⟨⟨hsound.nodup, fun b => ?_, hsound.capacity⟩, ?_, UInt32.le_iff_toNat_le.mp hmax,
      fun hm b state hstate => ?_, hregular.required id round hround,
      fun policy => hregular.policies id round policy hround⟩
    · have hentered := hsound.entered b
      simpa [RoundV2.view] using hentered
    · have hne : round.maxParticipants.toNat ≠ 0 := fun h => hpositive (UInt32.toNat_inj.mp h)
      omega
    · have hescrow := (hsound.entries b state.entry (by simp [RoundV2.view, hstate])).escrow
      have hpayment : (round.view (c.world.store.submissionV2 id)).terms.payment = none :=
        ((hw.consistent id round hround).receiptOnly hm).1
      rw [Terms.EscrowOk, hpayment] at hescrow
      exact I128.toInt_inj.mp hescrow
  · exact Run.created_policy hd.chain_sound h hmem hcreation

/-- The sale is under its policy. -/
theorem roster_sample : ∃ c events round policy, Run Sample.host Sample.deployed events c ∧
    c.world.store.roundV2 1 = some round ∧ c.world.store.policyV2 1 = some policy ∧
    round.bidders = [Sample.alice] ∧ round.Obeys policy (c.world.store.submissionV2 1) := by
  obtain ⟨c, events, hrun, hvalue⟩ := Chain.exec_reaches Sample.host Sample.deployed Sample.sale
    (fun c _ => ((c.world.store.roundV2 1).map RoundV2.bidders, c.world.store.policyV2 1))
    (some [Sample.alice], some Sample.salePolicy.partner) (by decide +kernel)
  obtain ⟨hbidders, hpolicy⟩ := Prod.mk.inj hvalue
  obtain ⟨round, hround, hlist⟩ := Option.map_eq_some_iff.mp hbidders
  exact ⟨c, events, round, _, hrun, hround, hpolicy, hlist,
    ((roster Sample.deployed_ok hrun).2.1 1 round hround).2.2.2.2.2 _ hpolicy⟩

end

end SubRosa
