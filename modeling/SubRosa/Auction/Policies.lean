import SubRosa.Auction.Lifecycle

/-!
# Partner policies

The policy of a partner or third-version round lies in a record of its own.
What it demands holds of the round and of every submission, in every state.
-/

namespace SubRosa

open MachineInt Invocation

/-- A round and its submissions obey its stored policy. -/
structure RoundV2.Obeys (round : RoundV2) (policy : RoundPolicyV2)
    (submissions : Address → Option SubmissionStateV2) : Prop where
  settlement : policy.settlement =
    ⟨round.mode, round.paymentAsset, round.lotAsset, round.lotAmount⟩
  valid : policy.Valid round.mode round.maxParticipants
  allowed : ∀ b ∈ round.bidders, policy.eligibleParticipants = [] ∨
    b ∈ policy.eligibleParticipants
  escrows : round.mode = .Auction → ∀ b state, submissions b = some state →
    state.escrow = policy.fixedEscrow

/-- What the creation checks of every stored round still holds. -/
structure World.Regular (w : World) : Prop where
  limits : ∀ id round, w.store.roundV2 id = some round →
    round.maxParticipants ≠ 0 ∧ round.maxParticipants ≤ maxV2Participants
  policies : ∀ id round policy, w.store.roundV2 id = some round →
    w.store.policyV2 id = some policy → round.Obeys policy (w.store.submissionV2 id)
  required : ∀ id round, w.store.roundV2 id = some round →
    round.protocolVersion = revealPolicyVersion → (w.store.policyV2 id).isSome = true

section

variable {host : Host} {config : GlobalConfig} {tx : Transaction} {w : World} {t : Nat}
  {r r' : SealedRound} {action : Action} {ts : List Transfer}

/-! ## Where bidders and escrows come from -/

theorem Transition.entrant (h : Transition host t r action ts r') {b : Address}
    (hb : b ∈ r'.bidders) :
    b ∈ r.bidders ∨ ∃ commitment escrow, action = .commit b commitment escrow := by
  have hvoided : r.voided.bidders = r.bidders := by
    unfold SealedRound.voided
    split <;> rfl
  cases h with
  | commit c commitment escrow =>
    have hb : b ∈ if c ∈ r.bidders then r.bidders else r.bidders ++ [c] := hb
    split at hb
    · exact Or.inl hb
    · rcases List.mem_append.mp hb with hb | hb
      · exact Or.inl hb
      · obtain rfl := List.mem_singleton.mp hb
        exact Or.inr ⟨commitment, escrow, rfl⟩
  | opening => exact Or.inl hb
  | reveal => exact Or.inl hb
  | clear => exact Or.inl hb
  | clearVoid => exact Or.inl (hvoided ▸ hb)
  | finalize => exact Or.inl hb
  | settle => exact Or.inl hb
  | void => exact Or.inl (hvoided ▸ hb)

theorem Transition.escrow (h : Transition host t r action ts r') {b : Address} {e' : Entry}
    (he' : r'.entry b = some e') :
    (∃ e, r.entry b = some e ∧ e.escrow = e'.escrow) ∨
      ∃ commitment, action = .commit b commitment e'.escrow := by
  have hclose : ∀ {status : Status}, (r.close status).entry b = some e' →
      ∃ e, r.entry b = some e ∧ e.escrow = e'.escrow := by
    intro status hc
    obtain ⟨e, he, rfl⟩ := SealedRound.close_entry hc
    exact ⟨e, he, rfl⟩
  have hvoided : r.voided.entry b = some e' → ∃ e, r.entry b = some e ∧ e.escrow = e'.escrow := by
    unfold SealedRound.voided
    split
    · exact hclose
    · exact fun he => ⟨e', he, rfl⟩
  cases h with
  | commit c commitment escrow =>
    by_cases hc : b = c
    · subst hc
      right
      have hfresh : (r.enter b (Entry.fresh commitment escrow)).entry b =
          some (Entry.fresh commitment escrow) := Function.update_self ..
      obtain rfl := Option.some_inj.mp (hfresh.symm.trans he')
      exact ⟨commitment, rfl⟩
    · have hsame : (r.enter c (Entry.fresh commitment escrow)).entry b = r.entry b :=
        Function.update_of_ne hc ..
      exact Or.inl ⟨e', hsame.symm.trans he', rfl⟩
  | opening => exact Or.inl ⟨e', he', rfl⟩
  | reveal c e x amount _ _ he =>
    left
    by_cases hc : b = c
    · subst hc
      have hset := (Function.update_self ..).symm.trans he'
      obtain rfl := Option.some_inj.mp hset
      exact ⟨e, he, rfl⟩
    · exact ⟨e', (Function.update_of_ne hc ..).symm.trans he', rfl⟩
  | clear => exact Or.inl ⟨e', he', rfl⟩
  | clearVoid => exact Or.inl (hvoided he')
  | finalize => exact Or.inl (hclose he')
  | settle => exact Or.inl (hclose he')
  | void => exact Or.inl (hvoided he')

/-- A successful commit is allowed by the stored policy. -/
theorem World.Sound.commit_allowed (hw : w.Sound host config tx.timestamp.toNat)
    (hself : tx.auths host.currentContract = false) {call : Call} {o : Outcome}
    (h : invoke host tx call w = .ok o) {id : UInt64} (hkey : call.key o.value = some (.v2 id))
    {b : Address} {commitment : BytesN 32} {n : Int}
    (haction : call.action = some (.commit b commitment n)) :
    ∃ round escrow, w.store.roundV2 id = some round ∧ I128.toInt escrow = n ∧
      ∀ p, w.store.policyV2 id = some p → p.Allows round.mode b escrow := by
  obtain ⟨r, -, hr, -⟩ := hw.invoke_step hself h hkey haction
  obtain ⟨round, hround, -⟩ := World.of_view_v2 hr
  have hy := invoke_eq_ok.mp h
  obtain ⟨value, w', ts⟩ := o
  cases call <;>
    simp only [Call.action, Option.some.injEq, reduceCtorEq, Action.commit.injEq] at haction
  case commit => simp [Call.key] at hkey
  case commitV2 j c commitment' ciphertext escrow blob =>
    obtain ⟨rfl, rfl, rfl⟩ := haction
    obtain rfl : j = id := by simpa [Call.key] using hkey
    obtain ⟨a, hy, -⟩ := (yields_map ..).mp hy
    obtain ⟨-, -, -, -, hallows, -⟩ := (yields_commitV2 (hw.env tx) hround ..).mp hy
    exact ⟨round, escrow, hround, rfl, hallows⟩

/-! ## Every call keeps the policies -/

theorem World.Regular.call (hreg : w.Regular) (hw : w.Sound host config tx.timestamp.toNat)
    (hself : tx.auths host.currentContract = false) {call : Call} {o : Outcome}
    (h : invoke host tx call w = .ok o) {key : RoundKey} (hkey : call.key o.value = some key)
    (haction : call.action = some action)
    (hadv : w.Advances ⟨host, tx⟩ key action ⟨o.world, o.transfers⟩) : o.world.Regular where
  limits id round hround := by
    obtain ⟨old, _, _, _, _, hold, rfl⟩ := hadv.roundV2_back hround
    exact hreg.limits id old hold
  required id round hround hversion := by
    obtain ⟨old, _, _, _, _, hold, rfl⟩ := hadv.roundV2_back hround
    rw [congrFun hadv.evolves.policyV2 id]
    exact hreg.required id old hold hversion
  policies id round policy hround hpolicy := by
    rw [congrFun hadv.evolves.policyV2 id] at hpolicy
    by_cases hk : RoundKey.v2 id = key
    · subst hk
      obtain ⟨old, _, _, _, _, hold, hcontinues⟩ := hadv.roundV2_back hround
      have hobeys := hreg.policies id old policy hold hpolicy
      obtain ⟨r, r', hr, hr', hstep⟩ := hadv.step
      obtain ⟨old', hold', rfl⟩ := World.of_view_v2 hr
      obtain rfl : old = old' := Option.some_inj.mp (hold.symm.trans hold')
      obtain ⟨round', hround', rfl⟩ := World.of_view_v2 hr'
      obtain rfl : round = round' := Option.some_inj.mp (hround.symm.trans hround')
      -- a new bidder or a new escrow comes from a commit that the policy allowed
      have hallows : ∀ b commitment n, action = .commit b commitment n →
          ∃ escrow, I128.toInt escrow = n ∧ policy.Allows old.mode b escrow := by
        rintro b commitment n rfl
        obtain ⟨old', escrow, hold', hn, hall⟩ := hw.commit_allowed hself h hkey haction
        obtain rfl : old = old' := Option.some_inj.mp (hold.symm.trans hold')
        exact ⟨escrow, hn, hall policy hpolicy⟩
      refine ⟨?_, ?_, fun b hb => ?_, fun hm b state hstate => ?_⟩
      · rw [hcontinues]
        exact hobeys.settlement
      · rw [hcontinues]
        exact hobeys.valid
      · rcases hstep.entrant hb with hb | ⟨commitment, n, heq⟩
        · exact hobeys.allowed b hb
        · obtain ⟨escrow, -, hall⟩ := hallows b commitment n heq
          exact hall.1
      · have hmode : old.mode = .Auction := by
          rw [hcontinues] at hm
          exact hm
        have he' : (round.view (o.world.store.submissionV2 id)).entry b = some state.entry := by
          show (o.world.store.submissionV2 id b).map SubmissionStateV2.entry = some state.entry
          have hstate : o.world.store.submissionV2 id b = some state := hstate
          rw [hstate, Option.map_some]
        rcases hstep.escrow he' with ⟨e, he, hescrow⟩ | ⟨commitment, heq⟩
        · obtain ⟨before, hbefore, rfl⟩ := Option.map_eq_some_iff.mp he
          rw [← hobeys.escrows hmode b before hbefore]
          exact I128.toInt_inj.mp hescrow.symm
        · obtain ⟨escrow, hn, hall⟩ := hallows b commitment _ heq
          rw [← hall.2 hmode]
          exact I128.toInt_inj.mp hn.symm
    · rw [hadv.evolves.roundV2 id hk] at hround
      rw [hadv.evolves.submissionV2 id hk]
      exact hreg.policies id round policy hround hpolicy

/-- What a creation of the second generation leaves under its own id. -/
theorem Creation.Wrote.obeys {creation : Creation} {id : UInt64} {s s' : Store}
    (h : creation.Wrote host config tx id s s') (hunused : s.Unused id) :
    s'.policyV2 id = creation.policy ∧ s'.roundV2 id = some creation.round ∧
      (∀ policy, creation.policy = some policy → policy.settlement = creation.settlement →
        creation.round.Obeys policy (s'.submissionV2 id)) := by
  refine ⟨?_, ?_, fun policy hpolicy hsettlement => ?_⟩
  · rw [h.policyV2, Function.update_self, hunused.policyV2]
    cases creation.policy <;> rfl
  · rw [h.roundV2, Function.update_self]
  · have hround : creation.round.mode = creation.settlement.mode ∧
        creation.round.paymentAsset = creation.settlement.paymentAsset ∧
        creation.round.lotAsset = creation.settlement.lotAsset ∧
        creation.round.lotAmount = creation.settlement.lotAmount ∧
        creation.round.maxParticipants = creation.args.maxParticipants ∧
        creation.round.bidders = [] := by
      unfold Creation.round
      split <;> exact ⟨rfl, rfl, rfl, rfl, rfl, rfl⟩
    obtain ⟨hmode, hpay, hlot, hamount, hmax, hbidders⟩ := hround
    refine ⟨?_, ?_, ?_, fun _ b state hstate => ?_⟩
    · rw [hsettlement, hmode, hpay, hlot, hamount]
    · rw [hmode, hmax]
      exact h.accepted.admits policy hpolicy
    · rw [hbidders]
      nofun
    · rw [h.submissionV2, hunused.submissionV2 b] at hstate
      cases hstate

/-- The policy of a partner creation names the settlement of the round. -/
theorem Call.creation_settlement {call : Call} {creation : Creation}
    (h : call.creation = some creation) {policy : RoundPolicyV2}
    (hpolicy : creation.policy = some policy) : policy.settlement = creation.settlement := by
  cases call <;> simp only [Call.creation, Option.some.injEq, reduceCtorEq] at h <;> subst h <;>
    simp only [Option.some.injEq, reduceCtorEq] at hpolicy <;> rw [hpolicy]

/-- A call that creates under a key of the second generation is structured. -/
theorem Call.creation_of_key {call : Call} {value : Value} {id : UInt64}
    (hnone : call.action = none) (hkey : call.key value = some (.v2 id)) :
    ∃ creation, call.creation = some creation ∧ value = .roundId id := by
  cases call <;> cases value <;> simp_all [Call.action, Call.key, Call.creation]

theorem World.Regular.create (hreg : w.Regular) (hw : w.Sound host config tx.timestamp.toNat)
    {call : Call} {o : Outcome} (h : invoke host tx call w = .ok o) {key : RoundKey}
    (hkey : call.key o.value = some key) (hnone : call.action = none)
    (hgrows : w.store.Grows key o.world.store) : o.world.Regular := by
  have hunused := (hw.fresh hgrows).2
  -- whatever is under another id was there before
  have hother : ∀ id, RoundKey.v2 id ≠ key → o.world.store.roundV2 id = w.store.roundV2 id ∧
      o.world.store.policyV2 id = w.store.policyV2 id ∧
      o.world.store.submissionV2 id = w.store.submissionV2 id := fun id hid =>
    ⟨hgrows.roundV2 id hid, hgrows.policyV2 id hid, congrFun hgrows.submissionV2 id⟩
  -- and what is under the new id was written by the creation
  have hnew : ∀ id round, RoundKey.v2 id = key → o.world.store.roundV2 id = some round →
      ∃ creation, call.creation = some creation ∧ round = creation.round ∧
        creation.Wrote host config tx id w.store o.world.store := by
    intro id round hid hround
    subst hid
    obtain ⟨creation, hcreation, hvalue⟩ := Call.creation_of_key hnone hkey
    obtain ⟨id', hvalue', hwrote⟩ := hw.creation_writes h hcreation
    obtain rfl : id = id' := Value.roundId.inj (hvalue.symm.trans hvalue')
    rw [hwrote.roundV2, Function.update_self, Option.some_inj] at hround
    exact ⟨creation, hcreation, hround.symm, hwrote⟩
  refine ⟨fun id round hround => ?_, fun id round policy hround hpolicy => ?_,
    fun id round hround hversion => ?_⟩
  · by_cases hid : RoundKey.v2 id = key
    · obtain ⟨creation, -, rfl, hwrote⟩ := hnew id round hid hround
      have hmax : creation.round.maxParticipants = creation.args.maxParticipants := by
        unfold Creation.round
        split <;> rfl
      rw [hmax]
      exact ⟨hwrote.accepted.someParticipant, hwrote.accepted.maxParticipants⟩
    · rw [(hother id hid).1] at hround
      exact hreg.limits id round hround
  · by_cases hid : RoundKey.v2 id = key
    · obtain ⟨creation, hcreation, rfl, hwrote⟩ := hnew id round hid hround
      subst hid
      obtain ⟨hp, -, hobeys⟩ := hwrote.obeys hunused
      have hpolicy := hp.symm.trans hpolicy
      exact hobeys policy hpolicy (Call.creation_settlement hcreation hpolicy)
    · obtain ⟨h₁, h₂, h₃⟩ := hother id hid
      rw [h₁] at hround
      rw [h₂] at hpolicy
      rw [h₃]
      exact hreg.policies id round policy hround hpolicy
  · by_cases hid : RoundKey.v2 id = key
    · obtain ⟨creation, -, rfl, hwrote⟩ := hnew id round hid hround
      subst hid
      rw [(hwrote.obeys hunused).1]
      cases hreveal : creation.reveal with
      | some p => exact (hwrote.reveal p hreveal).2
      | none =>
        have hcore : creation.round.protocolVersion = coreV2Version := by
          unfold Creation.round
          rw [hreveal]
          rfl
        rw [hcore] at hversion
        exact absurd hversion (by decide)
    · obtain ⟨h₁, h₂, -⟩ := hother id hid
      rw [h₁] at hround
      rw [h₂]
      exact hreg.required id round hround hversion

theorem Step.regular {c c' : Chain} {e : Event} (h : Step host c e c') (hs : c.Sound host config)
    (hreg : c.world.Regular) : c'.world.Regular := by
  cases h with
  | called hnow hself hcall =>
    have hw := hs.world.later (UInt64.le_iff_toNat_le.mp hnow)
    obtain ⟨key, hkey, href⟩ := invoke_refines hw hself hcall
    split at href
    · next haction => exact hreg.call hw hself hcall hkey haction href
    · next hnone => exact hreg.create hw hcall hkey hnone href.grows
  | failed => exact hreg
  | outside => exact ⟨hreg.limits, hreg.policies, hreg.required⟩
  | revealStateLost => exact ⟨hreg.limits, hreg.policies, hreg.required⟩

/-- **Policies along a run.** -/
theorem Run.regular {c₀ c : Chain} {events : List Event} (hd : Deployed config c₀)
    (h : Run host c₀ events c) : c.world.Regular := by
  refine Runs.Run.invariant_of (J := Chain.Sound host config) (I := fun d => d.world.Regular)
    (fun _ _ _ hc hstep => Step.sound hstep hc) (fun _ _ _ hc hold hstep => hstep.regular hc hold)
    h hd.chain_sound ?_
  refine ⟨fun id round hr => ?_, fun id round _ hr => ?_, fun id round hr => ?_⟩ <;>
    simp [hd.1, Store.empty] at hr

end

end SubRosa
