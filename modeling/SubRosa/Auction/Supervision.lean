import SubRosa.Auction.Opening
import SubRosa.Auction.Policies

/-!
# The opening record

A round is opened at most once, by a transaction that its opening policy
allowed, and the record of a third-version round names the time of it.
-/

namespace SubRosa

open MachineInt Invocation

/-- The transaction that opened the round under the key by this event. -/
def Event.opener (key : RoundKey) : Event → Option Transaction
  | .called tx call value _ =>
      if call.key value = some key ∧ call.action = some .opening then some tx else none
  | _ => none

/-- The transactions that opened the round under the key, in order. -/
def openingsOn (key : RoundKey) (events : List Event) : List Transaction :=
  events.filterMap (Event.opener key)

/-- A creation policy lets this transaction open the round. -/
structure RevealPolicy.Allows (policy : RevealPolicy) (config : GlobalConfig) (args : RoundArgsV2)
    (tx : Transaction) : Prop where
  afterDrand : exactTimeOfRound config args.revealRound ≤ tx.timestamp.toNat
  beforeDeadline : tx.timestamp ≤ args.revealDeadline
  owner : ∀ fallbackAt, policy = .OwnerTriggered fallbackAt → tx.timestamp < fallbackAt →
    tx.auths args.operator = true

/-- A round was opened once, or it is open or was voided without an opening. -/
inductive Opened : List Transaction → Status → Prop
  | never {status : Status} : status = .Open ∨ status = .Voided → Opened [] status
  | once {status : Status} (tx : Transaction) : status ≠ .Open → Opened [tx] status

/-- The round of a creation and its opening record after these openings. -/
structure Creation.Upheld (creation : Creation) (config : GlobalConfig)
    (openings : List Transaction) (id : UInt64) (s : Store) : Prop where
  stored : ∃ round, s.roundV2 id = some round ∧ creation.round.Continues round ∧
    Opened openings round.status
  record : ∀ state, s.revealV3 id = some state → creation.reveal = some state.policy ∧
    state.openedAt = openings.head?.map Transaction.timestamp
  scheduled : creation.args.revealRound ≠ 0 ∧
    exactTimeOfRound config creation.args.revealRound < creation.args.revealDeadline.toNat
  allowed : ∀ tx ∈ openings, creation.args.commitDeadline < tx.timestamp ∧
    ∀ policy, creation.reveal = some policy → policy.Allows config creation.args tx

section

variable {host : Host} {config : GlobalConfig} {key : RoundKey} {c c' : Chain}
  {events : List Event} {creation : Creation} {openings : List Transaction} {id : UInt64}
  {s s' : Store}

theorem Event.opener_none {e : Event} (h : e.actionOn key ≠ some .opening) :
    e.opener key = none := by
  cases e with
  | called tx call value ts =>
    refine if_neg fun hopens => h ?_
    rw [Event.actionOn, if_pos hopens.1, hopens.2]
  | failed => rfl
  | outside => rfl
  | revealStateLost => rfl

/-- What stays true when the record is untouched or lost. -/
theorem Creation.Upheld.same (h : creation.Upheld config openings id s)
    (hround : s'.roundV2 id = s.roundV2 id)
    (hrecord : ∀ state, s'.revealV3 id = some state → s.revealV3 id = some state) :
    creation.Upheld config openings id s' :=
  { h with
    stored := hround ▸ h.stored
    record := fun state hstate => h.record state (hrecord state hstate) }

@[simp] theorem Creation.round_operator (creation : Creation) :
    creation.round.operator = creation.args.operator := by
  unfold Creation.round
  split <;> rfl

@[simp] theorem Creation.round_revealRound (creation : Creation) :
    creation.round.revealRound = creation.args.revealRound := by
  unfold Creation.round
  split <;> rfl

@[simp] theorem Creation.round_commitDeadline (creation : Creation) :
    creation.round.commitDeadline = creation.args.commitDeadline := by
  unfold Creation.round
  split <;> rfl

@[simp] theorem Creation.round_revealDeadline (creation : Creation) :
    creation.round.revealDeadline = creation.args.revealDeadline := by
  unfold Creation.round
  split <;> rfl

/-- Only a creation with an opening policy is of the third version. -/
theorem Creation.round_third (creation : Creation) :
    creation.round.protocolVersion = revealPolicyVersion ↔ creation.reveal.isSome = true := by
  unfold Creation.round
  split
  · next hnone =>
    rw [hnone]
    have hcore : coreV2Version ≠ revealPolicyVersion := by decide
    exact ⟨fun h => absurd h hcore, nofun⟩
  · next policy hsome =>
    rw [hsome]
    exact ⟨fun _ => rfl, fun _ => rfl⟩

/-- A creation starts without an opening. -/
theorem Creation.Wrote.upheld {tx : Transaction} (h : creation.Wrote host config tx id s s')
    (hunused : s.Unused id) : creation.Upheld config [] id s' where
  stored := by
    refine ⟨creation.round, (h.obeys hunused).2.1, ⟨_, _, _, _, rfl⟩, Opened.never (Or.inl ?_)⟩
    unfold Creation.round
    split <;> rfl
  record state hstate := by
    rw [h.revealV3] at hstate
    cases hreveal : creation.reveal with
    | none =>
      rw [hreveal] at hstate
      have hstate : s.revealV3 id = some state := hstate
      rw [hunused.revealV3] at hstate
      cases hstate
    | some policy =>
      rw [hreveal] at hstate
      have hstate : Function.update s.revealV3 id (some ⟨policy, none⟩) id = some state := hstate
      rw [Function.update_self, Option.some_inj] at hstate
      subst hstate
      exact ⟨rfl, rfl⟩
  scheduled := by
    have hexact := timeOfRound_exact h.accepted.revealRound h.accepted.afterDrand
    have hlt := UInt64.lt_iff_toNat_lt.mp h.accepted.afterDrand
    exact ⟨h.accepted.revealRound, by omega⟩
  allowed := nofun

/-- Where a step that is no opening leads. -/
theorem Transition.stays_opened {t : Nat} {r r' : SealedRound} {action : Action}
    {ts : List Transfer}
    (h : Transition host t r action ts r') (hother : action ≠ .opening)
    (ho : Opened openings r.status) : Opened openings r'.status := by
  have hvoided : r.voided.status = .Voided := by
    unfold SealedRound.voided
    split <;> rfl
  have hnot : r.status = .Revealing ∨ r.status = .Cleared → r'.status ≠ .Open →
      Opened openings r'.status := by
    intro hstatus hopen
    cases ho with
    | never hnever => rcases hstatus with hs | hs <;> simp [hs] at hnever
    | once tx => exact Opened.once tx hopen
  cases h with
  | commit => exact ho
  | opening => exact absurd rfl hother
  | reveal => exact ho
  | clear _ _ hs => exact hnot (Or.inl hs) nofun
  | clearVoid hs => exact hnot (Or.inl hs) (by simp [hvoided])
  | finalize hs => exact hnot (Or.inl hs) nofun
  | settle _ hs => exact hnot (Or.inr hs) nofun
  | void hs =>
    cases ho with
    | never => exact Opened.never (Or.inr hvoided)
    | once _ hne => exact absurd hs hne

/-- **Step lemma.** -/
theorem Step.upheld {e : Event} (h : Step host c e c') (hs : c.Sound host config)
    (hup : creation.Upheld config openings id c.world.store) :
    creation.Upheld config (openings ++ (e.opener (.v2 id)).toList) id c'.world.store := by
  obtain ⟨round, hround, hcontinues, hopened⟩ := hup.stored
  have hview : c.world.view (.v2 id) = some (round.view (c.world.store.submissionV2 id)) :=
    World.view_roundV2 hround
  cases h with
  | @called tx call o hnow hself hcall =>
    have hw := hs.world.later (UInt64.le_iff_toNat_le.mp hnow)
    obtain ⟨key, hkey, href⟩ := invoke_refines hw hself hcall
    by_cases hid : key = .v2 id
    · subst hid
      cases haction : call.action with
      | none =>
        rw [haction] at href
        rw [(hw.fresh href.grows).1] at hview
        cases hview
      | some action =>
        obtain ⟨old, new, submissions, seals, hold, hstore, -⟩ :=
          hw.writes_v2 hself hcall hkey haction
        obtain rfl : round = old := Option.some_inj.mp (hround.symm.trans hold)
        obtain ⟨r, r', hr, hr', htrans⟩ := hw.invoke_step hself hcall hkey haction
        obtain rfl := Option.some_inj.mp (hview.symm.trans hr)
        have hnew : o.world.store.roundV2 id = some new := by
          rw [hstore]
          exact Function.update_self ..
        have hstatus : r'.status = new.status := by
          rw [World.view_v2, hnew, Option.map_some, Option.some_inj] at hr'
          rw [← hr']
          rfl
        have hreveal : o.world.store.revealV3 id = if action = .opening then
            round.openedAt tx.timestamp (c.world.store.revealV3 id)
              else c.world.store.revealV3 id := by
          rw [hstore]
          exact Function.update_self ..
        have hcontinues' : creation.round.Continues new := by
          rw [haction] at href
          obtain ⟨_, _, _, _, hprogress⟩ := href.evolves.progressV2 id round hround
          obtain rfl := Option.some_inj.mp (hnew.symm.trans hprogress)
          obtain ⟨_, _, _, _, rfl⟩ := hcontinues
          exact ⟨_, _, _, _, rfl⟩
        by_cases hopening : action = .opening
        · subst hopening
          have hopener : Event.opener (.v2 id) (.called tx call o.value o.transfers) = some tx :=
            if_pos ⟨hkey, haction⟩
          rw [if_pos rfl] at hreveal
          rw [hopener]
          generalize o.transfers = ts at htrans
          cases htrans with
          | opening hopen hfrom =>
            -- nothing opened the round before
            cases hopened with
            | once _ hne => exact absurd hopen hne
            | never =>
              obtain ⟨_, _, _, _, hsame⟩ := hcontinues
              obtain ⟨-, -, -, -, -, hopens⟩ := hw.open_checked hself hcall hkey haction
              refine ⟨⟨new, hnew, hcontinues', Opened.once tx ?_⟩, fun state hstate => ?_,
                hup.scheduled, fun tx' htx => ?_⟩
              · rw [← hstatus]
                nofun
              · rw [hreveal] at hstate
                unfold RoundV2.openedAt at hstate
                split at hstate
                · obtain ⟨old, hold, rfl⟩ := Option.map_eq_some_iff.mp hstate
                  exact ⟨(hup.record old hold).1, rfl⟩
                · next hversion =>
                  -- the record of a round with a policy is of the third version
                  have hpolicy := (hup.record state hstate).1
                  refine absurd ?_ hversion
                  rw [hsame]
                  exact creation.round_third.mpr (by rw [hpolicy]; rfl)
              · obtain rfl := List.mem_singleton.mp htx
                refine ⟨?_, fun policy hpolicy => ?_⟩
                · rw [← creation.round_commitDeadline, UInt64.lt_iff_toNat_lt]
                  rw [hsame] at hfrom
                  exact hfrom
                · have hversion : round.protocolVersion = revealPolicyVersion := by
                    rw [hsame]
                    exact creation.round_third.mpr (by rw [hpolicy]; rfl)
                  obtain ⟨state, hstate, hopensAt⟩ := hopens round hround rfl hversion
                  obtain rfl := Option.some_inj.mp
                    (hpolicy.symm.trans (hup.record state hstate).1)
                  have hdue := (hw.opens_due hview hround hopensAt).1
                  rw [hsame] at hdue hopensAt
                  refine ⟨?_, ?_, fun fallbackAt hp hearly => ?_⟩
                  · rw [← creation.round_revealRound]
                    exact hdue
                  · rw [← creation.round_revealDeadline]
                    exact hopensAt.beforeDeadline
                  · rw [← creation.round_operator]
                    exact hopensAt.opener fallbackAt hp hearly
        · have hopener : Event.opener (.v2 id) (.called tx call o.value o.transfers) = none :=
            if_neg fun h => hopening (Option.some_inj.mp (haction.symm.trans h.2))
          rw [if_neg hopening] at hreveal
          rw [hopener, Option.toList_none, List.append_nil]
          refine { hup with
            stored := ⟨new, hnew, hcontinues', ?_⟩
            record := fun state hstate => hup.record state (hreveal ▸ hstate) }
          rw [← hstatus]
          exact htrans.stays_opened hopening hopened
    · have hopener : Event.opener (.v2 id) (.called tx call o.value o.transfers) = none :=
        if_neg fun h => hid (Option.some_inj.mp (hkey.symm.trans h.1))
      rw [hopener, Option.toList_none, List.append_nil]
      split at href
      · have hsame : o.world.store.revealV3 id = c.world.store.revealV3 id :=
          href.evolves.revealV3 id (Ne.symm hid)
        exact hup.same (href.evolves.roundV2 id (Ne.symm hid)) fun _ h => hsame ▸ h
      · have hsame : o.world.store.revealV3 id = c.world.store.revealV3 id :=
          href.grows.revealV3 id (Ne.symm hid)
        exact hup.same (href.grows.roundV2 id (Ne.symm hid)) fun _ h => hsame ▸ h
  | failed => exact (List.append_nil openings).symm ▸ hup
  | outside => exact (List.append_nil openings).symm ▸ hup.same rfl fun _ h => h
  | revealStateLost j =>
    refine (List.append_nil openings).symm ▸ hup.same rfl fun state hstate => ?_
    have hlost : Function.update c.world.store.revealV3 j none id = some state := hstate
    by_cases hj : id = j
    · subst hj
      rw [Function.update_self] at hlost
      cases hlost
    · rwa [Function.update_of_ne hj] at hlost

theorem Run.upheld_from (h : Run host c events c') (hs : c.Sound host config)
    (hup : creation.Upheld config openings id c.world.store) :
    creation.Upheld config (openings ++ openingsOn (.v2 id) events) id c'.world.store := by
  induction h with
  | nil => exact (List.append_nil openings).symm ▸ hup
  | @snoc events d e d' hrun hstep ih =>
    have hsnoc : openings ++ openingsOn (.v2 id) (events ++ [e]) =
        (openings ++ openingsOn (.v2 id) events) ++ (e.opener (.v2 id)).toList := by
      unfold openingsOn
      rw [List.filterMap_append, ← List.append_assoc]
      cases he : e.opener (.v2 id) <;> simp [he]
    rw [hsnoc]
    exact Step.upheld hstep (Run.sound hrun hs) ih

/-- Nothing was opened under a key without a round. -/
theorem Run.openings_nil (h : Run host c events c') (hs : c.Sound host config)
    (hnone : c'.world.view key = none) : openingsOn key events = [] := by
  refine List.filterMap_eq_nil_iff.mpr fun e he => Event.opener_none fun haction => ?_
  obtain ⟨_, _, a, b, -, hpre, hstep, hpost⟩ := Runs.Run.mem_step h he
  have ha := Run.sound hpre hs
  cases e with
  | called tx call value ts =>
    obtain ⟨hnow, hself, -, o, hcall, rfl, -, hworld⟩ := hstep.call
    have hkey : call.key o.value = some key ∧ call.action = some .opening := by
      by_cases hk : call.key o.value = some key
      · rw [Event.actionOn, if_pos hk] at haction
        exact ⟨hk, haction⟩
      · rw [Event.actionOn, if_neg hk] at haction
        cases haction
    obtain ⟨r, r', -, hr', -⟩ :=
      (ha.world.later (UInt64.le_iff_toNat_le.mp hnow)).invoke_step hself hcall hkey.1 hkey.2
    obtain ⟨q, hq, -⟩ := Run.terms hpost (Step.sound hstep ha) (hworld ▸ hr')
    rw [hnone] at hq
    cases hq
  | failed => cases haction
  | outside => cases haction
  | revealStateLost => cases haction

/-- **The opening record along a run.** -/
theorem Run.upheld {c₀ : Chain} (h : Run host c₀ events c) (hs : c₀.Sound host config)
    {tx : Transaction} {call : Call} {ts : List Transfer}
    (hmem : Event.called tx call (.roundId id) ts ∈ events)
    (hcreation : call.creation = some creation) :
    creation.Upheld config (openingsOn (.v2 id) events) id c.world.store ∧
      ∀ policy, creation.reveal = some policy →
        policy.Valid (timeOfRound config creation.args.revealRound)
          creation.args.revealDeadline := by
  obtain ⟨pre, post, a, b, rfl, hpre, hstep, hpost⟩ := Runs.Run.mem_step h hmem
  have ha := Run.sound hpre hs
  obtain ⟨hnow, hself, -, o, hcall, hvalue, -, hworld⟩ := hstep.call
  have hw := ha.world.later (UInt64.le_iff_toNat_le.mp hnow)
  obtain ⟨id', hid', hwrote⟩ := hw.creation_writes hcall hcreation
  obtain rfl : id = id' := Value.roundId.inj (hvalue.symm.trans hid')
  have hkind : call.key (.roundId id) = some (.v2 id) ∧ call.action = none := by
    cases call <;> simp_all [Call.creation, Call.key, Call.action]
  obtain ⟨key, hkey, href⟩ := invoke_refines hw hself hcall
  obtain rfl : key = .v2 id := by
    rw [hvalue, hkind.1, Option.some_inj] at hkey
    exact hkey.symm
  rw [hkind.2] at href
  obtain ⟨hfresh, hunused⟩ := hw.fresh href.grows
  have hopenings : openingsOn (.v2 id) (pre ++ .called tx call (.roundId id) ts :: post) =
      [] ++ openingsOn (.v2 id) post := by
    have hopener : Event.opener (.v2 id) (.called tx call (.roundId id) ts) = none :=
      if_neg fun h => by simp [hkind.2] at h
    have hnil := Run.openings_nil hpre hs hfresh
    unfold openingsOn at hnil ⊢
    rw [List.filterMap_append, hnil, List.filterMap_cons_none hopener]
  rw [hopenings]
  exact ⟨Run.upheld_from hpost (Step.sound hstep ha) (hworld ▸ hwrote.upheld hunused),
    fun policy hpolicy => (hwrote.reveal policy hpolicy).1⟩

end

end SubRosa
