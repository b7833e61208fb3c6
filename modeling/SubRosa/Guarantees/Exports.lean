import SubRosa.Guarantees.Origins
import SubRosa.Guarantees.StructuredReceipts
import SubRosa.Sdk.Exported
import SubRosa.Sdk.Strkey

/-!
# Receipts of structured rounds

Every structured round of a run can be exported, and the verifier of structured
receipts accepts the export in every state of the round but one: a third-version
round that was opened and had no valid bid is voided by clearing and keeps the
time of its opening, which the verifier does not expect.
-/

namespace SubRosa.Sdk

open JavaScript MachineInt Report

/-- What the verifier cannot take for granted of a stored round. -/
structure Attestable (passphrase : String) (config : GlobalConfig) (round : RoundV2)
    (reveal : Option RevealStateV3) : Prop where
  network : passphrase ≠ ""
  safe : round.revealRound.toNat < 2 ^ 53
  period : round.protocolVersion = revealPolicyVersion → 0 < config.drandPeriod.toNat
  unopened : round.status = .Voided → ∀ state, reveal = some state → state.openedAt = none

section

variable {engine : Engine} {exporter : Exporter} {host : Host} {config : GlobalConfig} {now : Nat}
  {roundId : UInt64} {round : RoundV2} {policy : Option RoundPolicyV2}
  {reveal : Option RevealStateV3} {submissions : Address → Option SubmissionStateV2}
  {entries : List (String × Json)} {r : String → JsValue}

/-! ## Version, mode and status -/

theorem ReceiptReadsV2.version3
    (hr : ReceiptReadsV2 exporter host roundId round config policy reveal entries r)
    (hversion : round.protocolVersion = coreV2Version ∨
      round.protocolVersion = revealPolicyVersion) :
    isVersion3 r = true ↔ round.protocolVersion = revealPolicyVersion := by
  rw [isVersion3, hr.version]
  rcases hversion with h | h
  · rw [h]
    decide
  · rw [h]
    decide

theorem ReceiptReadsV2.hasVersion
    (hr : ReceiptReadsV2 exporter host roundId round config policy reveal entries r)
    (hversion : round.protocolVersion = coreV2Version ∨
      round.protocolVersion = revealPolicyVersion) : hasVersion r := by
  unfold Sdk.hasVersion
  rw [hr.version, hr.protocolVersion]
  rcases hversion with h | h
  · rw [h]
    decide
  · rw [h]
    decide

theorem ReceiptReadsV2.isAuction
    (hr : ReceiptReadsV2 exporter host roundId round config policy reveal entries r) :
    isAuction r = true ↔ round.mode = .Auction := by
  rw [Sdk.isAuction, hr.mode]
  cases round.mode <;> decide

theorem ReceiptReadsV2.isReceiptOnly
    (hr : ReceiptReadsV2 exporter host roundId round config policy reveal entries r) :
    strictEq (r "mode") (some (.str "ReceiptOnly")) = true ↔ round.mode = .ReceiptOnly := by
  rw [hr.mode]
  cases round.mode <;> decide

theorem ReceiptReadsV2.hasStatus
    (hr : ReceiptReadsV2 exporter host roundId round config policy reveal entries r)
    (status : Status) : hasStatus r status.tag = true ↔ round.status = status := by
  rw [Sdk.hasStatus, hr.status]
  cases round.status <;> cases status <;> decide

/-! ## Identity and opening -/

theorem ReceiptReadsV2.identity
    (hr : ReceiptReadsV2 exporter host roundId round config policy reveal entries r)
    (hg : round.Governed host config now policy reveal submissions) :
    Passes (checkIdentity engine host.sha256 r) () ↔
      exporter.networkPassphrase ≠ "" ∧ round.revealRound.toNat < 2 ^ 53 := by
  have hnetwork : Passes (checkNetwork engine host.sha256 r) () ↔
      exporter.networkPassphrase ≠ "" := by
    rw [checkNetwork, hr.network, hr.networkFingerprint]
    by_cases hempty : exporter.networkPassphrase = ""
    · simp [truthy, hempty]
    · simp [truthy, hempty, text, Json.text, strictEq]
  have hcontract : startsWith 'C' (r "contractId") = true := by
    rw [hr.contractId, startsWith, exporter.contract]
    rfl
  have hid : decimal (r "roundId") ≠ none := by
    rw [hr.roundId, decimal_u64Json]
    exact Option.some_ne_none _
  have hitem : isHexOf 32 (r "itemRef") = true := hr.itemRef ▸ isHexOf_hexJson round.itemRef
  have hschema : isHexOf 32 (r "schemaRef") = true := hr.schemaRef ▸ isHexOf_hexJson round.schemaRef
  have hauditor : isHexValue (r "auditorPubkey") = true :=
    hr.auditorPubkey ▸ isHexValue_hexJson round.auditorPubkey
  have hround : isSafePositive (r "revealRound") = true ↔ round.revealRound.toNat < 2 ^ 53 := by
    rw [hr.revealRound, isSafePositive_numberJson]
    exact and_iff_right hg.sound.scheduled
  have hcap : isIntegerBetween 1 25 (r "maxParticipants") = true := by
    obtain ⟨hpositive, hmax⟩ := hg.limits
    have hone : 1 ≤ round.maxParticipants.toNat :=
      Nat.one_le_iff_ne_zero.mpr fun h => hpositive (UInt32.toNat_inj.mp h)
    have hle : round.maxParticipants.toNat ≤ 25 := UInt32.le_iff_toNat_le.mp hmax
    rw [hr.maxParticipants]
    exact isIntegerBetween_u32Json hone hle
  simp only [checkIdentity, Passes, clean_bind, clean_addIf, issue_bad, not_true_eq_false,
    imp_false,
    not_not, exists_const, hcontract, hid, hitem, hschema, hauditor, hcap, hround, hnetwork,
    not_false_eq_true, true_and, and_true]

theorem ReceiptReadsV2.privacyTime
    (hr : ReceiptReadsV2 exporter host roundId round config policy reveal entries r)
    (hg : round.Governed host config now policy reveal submissions)
    (hsmall : round.revealRound.toNat < 2 ^ 53) : privacyTime r =
      if 0 < config.drandPeriod.toNat then some (exactTimeOfRound config round.revealRound)
      else none := by
  have hsafe := isSafePositive_numberJson.mpr ⟨hg.sound.scheduled, hsmall⟩
  rw [numberJson_small hsmall] at hsafe
  rw [Sdk.privacyTime, hr.drandGenesis, hr.drandPeriod, hr.revealRound, numberJson_small hsmall,
    decimal_u64Json, decimal_u64Json]
  simp only [hsafe, Number.toInt, Rat.num_intCast, and_true, Int.natCast_nonneg, true_and,
    Int.natCast_pos]
  rfl

/-- The fields of an owner-triggered policy. -/
structure OwnerReads (exporter : Exporter) (operator : Address) (fallbackAt : UInt64)
    (field : String → JsValue) : Prop where
  type : field "type" = some (.str "owner-triggered")
  controller : field "controller" = some (addressJson exporter operator)
  fallbackAt : field "fallbackAt" = some (u64Json fallbackAt)

/-- The opening policy is a valid one. -/
theorem ReceiptReadsV2.revealPolicy_passes
    (hr : ReceiptReadsV2 exporter host roundId round config policy reveal entries r)
    (hg : round.Governed host config now policy reveal submissions)
    (hprivacy : Sdk.privacyTime r = some (exactTimeOfRound config round.revealRound))
    {state : RevealStateV3} (hstate : reveal = some state) :
    Passes (checkRevealPolicy engine r) () := by
  have hread : r "revealPolicy" = some (revealPolicyJson exporter round.operator state.policy) := by
    rw [hr.revealPolicy, hstate, Option.map_some]
  rw [checkRevealPolicy, hread]
  cases hpolicy : state.policy with
  | Timed =>
    have htype : property engine (revealPolicyJson exporter round.operator .Timed) "type" =
        some (.str "timed") := by
      rw [revealPolicyJson, property_obj (by simp [objectPrototype])]
      simp [fieldOf_cons]
    have htruthy : truthy (some (revealPolicyJson exporter round.operator .Timed)) = true := rfl
    simp [htype, htruthy, strictEq]
  | OwnerTriggered fallbackAt =>
    obtain ⟨hafter, hwindow⟩ := hg.fallback state fallbackAt hstate hpolicy
    have hfallback : fallbackOk (some (fallbackAt.toNat : Int))
        (some (exactTimeOfRound config round.revealRound))
        (some (round.revealDeadline.toNat : Int)) = true := by
      rw [fallbackOk, decide_eq_true_eq]
      omega
    obtain ⟨htype, hname, htime⟩ : OwnerReads exporter round.operator fallbackAt (property engine
      (revealPolicyJson exporter round.operator (.OwnerTriggered fallbackAt))) := by
      constructor
      all_goals
        rw [revealPolicyJson, property_obj (by simp [objectPrototype])]
        simp [fieldOf_cons]
    have hcontroller :
        strictEq (some (addressJson exporter round.operator)) (r "operator") = true := by
      rw [hr.operator, strictEq_addressJson, decide_eq_true rfl]
    have htruthy : truthy (some (revealPolicyJson exporter round.operator
      (.OwnerTriggered fallbackAt))) = true := rfl
    have howner : strictEq (some (.str "owner-triggered")) (some (.str "owner-triggered")) = true :=
      rfl
    simp [htype, hname, htime, htruthy, howner, hr.revealDeadline, hprivacy, decimal_u64Json,
      hfallback, hcontroller]

theorem ReceiptReadsV2.openedAt_passes
    (hr : ReceiptReadsV2 exporter host roundId round config policy reveal entries r)
    (hg : round.Governed host config now policy reveal submissions)
    (hprivacy : Sdk.privacyTime r = some (exactTimeOfRound config round.revealRound))
    {state : RevealStateV3} (hstate : reveal = some state) :
    Passes (checkOpenedAt r) () ↔ (round.status = .Voided → state.openedAt = none) := by
  have hread : r "openedAt" = some (orNull (state.openedAt.map u64Json)) := by
    rw [hr.openedAt, hstate, Option.map_some]
  have hnull : strictEq (r "openedAt") (some .null) = true ↔ state.openedAt = none := by
    rw [hread, strictEq_null, Option.some_inj, orNull_eq_null fun _ => Json.noConfusion]
  have hopen : Sdk.hasStatus r "Open" = true ↔ round.status = .Open := hr.hasStatus .Open
  have hvoided : Sdk.hasStatus r "Voided" = true ↔ round.status = .Voided := hr.hasStatus .Voided
  unfold checkOpenedAt
  by_cases hclosed : round.status = .Open ∨ round.status = .Voided
  · rw [if_pos (by rw [hopen, hvoided]; exact hclosed), Passes, clean_addIf]
    simp only [issue_bad, not_true_eq_false, imp_false, not_not, hnull]
    constructor
    · exact fun h _ => h
    · intro h
      rcases hclosed with hs | hs
      · by_contra hsome
        obtain ⟨t, ht⟩ := Option.ne_none_iff_exists'.mp hsome
        exact (hg.opened state t hstate ht).1 hs
      · exact h hs
  · rw [if_neg (by rw [hopen, hvoided]; exact hclosed), Passes, clean_addIf]
    have hsome : state.openedAt ≠ none := fun hnone => hclosed (hg.unopened state hstate hnone)
    obtain ⟨t, ht⟩ := Option.ne_none_iff_exists'.mp hsome
    obtain ⟨-, hfrom, hto⟩ := hg.opened state t hstate ht
    have hto := UInt64.le_iff_toNat_le.mp hto
    have hok : openedOk (decimal (r "openedAt")) (Sdk.privacyTime r)
        (decimal (r "revealDeadline")) = true := by
      rw [hread, ht, hprivacy, hr.revealDeadline, Option.map_some, orNull, decimal_u64Json,
        decimal_u64Json, openedOk, decide_eq_true_eq]
      omega
    simp only [hok, not_true_eq_false, false_imp_iff, true_iff]
    exact fun hs => absurd (.inr hs) hclosed

theorem ReceiptReadsV2.opening
    (hr : ReceiptReadsV2 exporter host roundId round config policy reveal entries r)
    (hg : round.Governed host config now policy reveal submissions)
    (hkept : round.protocolVersion = revealPolicyVersion → reveal.isSome = true)
    (hsmall : round.revealRound.toNat < 2 ^ 53) :
    Passes (checkOpening engine r) () ↔
      (round.protocolVersion = revealPolicyVersion → 0 < config.drandPeriod.toNat) ∧
      (round.status = .Voided → ∀ state, reveal = some state → state.openedAt = none) := by
  have hversion := hr.version3 hg.consistent.version
  unfold checkOpening
  by_cases h3 : round.protocolVersion = revealPolicyVersion
  · rw [if_pos (hversion.mpr h3)]
    obtain ⟨state, hstate⟩ := Option.isSome_iff_exists.mp (hkept h3)
    have henforced : strictEq (optionalGet engine (r "policy") "enforced")
        (some (.bool true)) = true := by
      have hread : optionalGet engine (r "policy") "enforced" =
          property engine (policyJson exporter policy) "enforced" := by
        rw [hr.policy]
        cases policy <;> rfl
      rw [hread, (policyJson_reads policy).enforced, hg.required h3]
      rfl
    have hbefore := hg.sound.beforeDrand
    have hafter := hg.sound.afterDrand
    have htime := hr.privacyTime hg hsmall
    simp only [Passes, clean_bind, clean_addIf, issue_bad, not_true_eq_false, imp_false, not_not,
      exists_const, henforced, not_false_eq_true, true_and, h3, true_implies]
    by_cases hperiod : 0 < config.drandPeriod.toNat
    · rw [if_pos hperiod] at htime
      have htiming : timingOk (Sdk.privacyTime r) (decimal (r "commitDeadline"))
          (decimal (r "revealDeadline")) = true := by
        rw [htime, hr.commitDeadline, hr.revealDeadline, decimal_u64Json, decimal_u64Json, timingOk,
          decide_eq_true_eq]
        exact ⟨hbefore, hafter⟩
      have hpolicy : Passes (checkRevealPolicy engine r) () :=
        hr.revealPolicy_passes hg htime hstate
      have hopened := hr.openedAt_passes hg htime hstate
      simp only [htiming, true_and, hperiod, hstate, Option.some_inj, forall_eq']
      rw [← hopened]
      constructor
      · rintro ⟨⟨⟩, -, h⟩
        exact h
      · exact fun h => ⟨(), hpolicy, h⟩
    · rw [if_neg hperiod] at htime
      simp [htime, timingOk, hperiod]
  · rw [if_neg (mt hversion.mp h3)]
    have hnone : reveal = none := by
      cases hreveal : reveal with
      | none => rfl
      | some state => exact absurd (hg.third state hreveal) h3
    have hpolicy : r "revealPolicy" = none := by rw [hr.revealPolicy, hnone, Option.map_none]
    have hopened : r "openedAt" = none := by rw [hr.openedAt, hnone, Option.map_none]
    simp [hpolicy, hopened, strictEq, h3, hnone]

/-! ## Policy and mode -/

/-- The participants that a policy names. -/
def participantsOf (policy : Option RoundPolicyV2) : List Address :=
  (policy.map RoundPolicyV2.eligibleParticipants).getD []

theorem ReceiptReadsV2.eligibility_passes
    (hr : ReceiptReadsV2 exporter host roundId round config policy reveal entries r)
    (hnodup : (participantsOf policy).Nodup)
    (hlength : (participantsOf policy).length ≤ round.maxParticipants.toNat)
    (hallowed : ∀ b ∈ round.bidders, participantsOf policy = [] ∨ b ∈ participantsOf policy)
    {p : String → JsValue} (hp : PolicyReads exporter policy p) (enforced : Bool) :
    Passes (checkEligibility engine r enforced p) () := by
  have hlist : p "eligibleParticipants" =
      some (.arr ((participantsOf policy).map (addressJson exporter))) := hp.eligibleParticipants
  have hset := setOf_distinct (@distinct_addresses exporter _ hnodup)
  have hcap : lessThan (some (.finite round.maxParticipants.toNat))
      (some (.finite ((participantsOf policy).map (addressJson exporter)).length)) = false := by
    rw [List.length_map]
    exact decide_eq_false (not_lt.mpr (by exact_mod_cast hlength))
  have hparticipation : p "participation" = some (.str
      (if ((participantsOf policy).map (addressJson exporter)).length = 0 then "Open"
        else "Allowlist")) := by
    rw [List.length_map]
    exact hp.participation
  have heligible : 0 < ((participantsOf policy).map (addressJson exporter)).length →
      Passes (checkEligible engine ((participantsOf policy).map (addressJson exporter))
        (round.bidders.map (addressJson exporter))) () := by
    intro hsome
    rw [List.length_map, List.length_pos_iff] at hsome
    rw [checkEligible, Passes, clean_forM]
    intro v hv
    obtain ⟨b, hb, rfl⟩ := List.mem_map.mp hv
    rw [hasValue_addresses, decide_eq_true ((hallowed b hb).resolve_left hsome)]
    exact clean_pure.mpr rfl
  rw [checkEligibility, hlist]
  simp only [hset, hr.maxParticipants, u32Json, toNumber, hparticipation, hr.bidders, Passes,
    clean_bind, clean_addIf, clean_lift, issue_bad, not_true_eq_false, imp_false, not_not,
    ne_eq, exists_const, Except.ok.injEq, exists_eq_left', hcap, Bool.false_eq_true,
    not_false_eq_true, true_and]
  refine ⟨decide_eq_true rfl, ?_⟩
  split
  · next h => exact heligible h.2
  · exact clean_pure.mpr rfl

theorem ReceiptReadsV2.policy_passes
    (hr : ReceiptReadsV2 exporter host roundId round config policy reveal entries r)
    (hg : round.Governed host config now policy reveal submissions) :
    Passes (checkPolicy engine r) () := by
  have hp := @policyJson_reads engine exporter policy
  have hauction := hr.isAuction
  have honly := hr.isReceiptOnly
  have hobject : isObject (some (policyJson exporter policy)) = true := by cases policy <;> rfl
  rw [checkPolicy, hr.policy]
  simp only [hobject, if_true, Passes, clean_bind, clean_addIf, issue_bad, warning_not_bad,
    not_true_eq_false, imp_false, not_false_eq_true, implies_true, exists_const]
  cases hpolicy : policy with
  | none =>
    subst hpolicy
    have heligible : Passes (checkEligibility engine r false
        (property engine (policyJson exporter none))) () :=
      hr.eligibility_passes (by simp [participantsOf]) (by simp [participantsOf])
        (fun _ _ => .inl rfl) hp false
    simp only [hp.enforced, hp.fixedEscrow, Option.isSome_none, Option.map_none, orNull, truthy,
      strictEq, Bool.false_eq_true, false_and, not_true_eq_false, not_false_eq_true, true_and,
      and_false, and_true]
    exact ⟨(), heligible⟩
  | some policy =>
    subst hpolicy
    have hobeys := hg.obeys policy rfl
    obtain ⟨hescrow, hlength, hnodup⟩ := hobeys.valid
    have heligible : Passes (checkEligibility engine r true
        (property engine (policyJson exporter (some policy)))) () :=
      hr.eligibility_passes hnodup hlength hobeys.allowed hp true
    simp only [hp.enforced, hp.fixedEscrow, Option.isSome_some, Option.map_some, orNull, truthy,
      decimal_i128Json, not_true_eq_false, false_and, and_false, not_false_eq_true, true_and,
      reduceCtorEq, and_true, hauction, honly]
    refine ⟨(), heligible, ?_, ?_⟩
    · rintro ⟨hmode, hbad⟩
      rw [hmode] at hescrow
      exact hbad (decide_eq_true hescrow)
    · rintro ⟨hmode, hbad⟩
      rw [hmode] at hescrow
      rw [show policy.fixedEscrow = 0 from hescrow] at hbad
      exact hbad rfl

/-- Without a payment asset there is neither a winner nor a bid. -/
theorem no_outcome {sealedRound : SealedRound} (h : sealedRound.Sound host config now)
    (hp : sealedRound.terms.payment = none) :
    sealedRound.winner = none ∧ sealedRound.winningBid = 0 := by
  cases hs : sealedRound.status with
  | Open => exact h.pending (.inl hs)
  | Revealing => exact h.pending (.inr (.inl hs))
  | Voided => exact h.pending (.inr (.inr hs))
  | Cleared =>
    have hsome := (h.cleared hs).1
    rw [hp] at hsome
    cases hsome
  | Settled =>
    have hend := (h.settled hs).2
    rw [hp] at hend
    exact hend

/-- A closed auction names its best bidder. -/
theorem best_outcome {sealedRound : SealedRound} (h : sealedRound.Sound host config now)
    (hp : sealedRound.terms.payment.isSome = true)
    (hs : sealedRound.status = .Cleared ∨ sealedRound.status = .Settled) :
    ∃ w, sealedRound.winner = some w ∧ sealedRound.best = some (w, sealedRound.winningBid) := by
  rcases hs with hs | hs
  · exact (h.cleared hs).2
  · obtain ⟨asset, hasset⟩ := Option.isSome_iff_exists.mp hp
    have hend := (h.settled hs).2
    rw [hasset] at hend
    exact hend

theorem winningBid_nonneg {sealedRound : SealedRound} (h : sealedRound.Sound host config now) :
    0 ≤ sealedRound.winningBid := by
  by_cases hp : sealedRound.terms.payment.isSome = true
  · by_cases hs : sealedRound.status = .Cleared ∨ sealedRound.status = .Settled
    · obtain ⟨w, -, hbest⟩ := best_outcome h hp hs
      exact (h.winner_covered hp hbest).2.1.le
    · have hpending : sealedRound.status = .Open ∨ sealedRound.status = .Revealing ∨
          sealedRound.status = .Voided := by
        cases hstatus : sealedRound.status <;> simp [hstatus] at hs ⊢
      rw [(h.pending hpending).2]
  · rw [(no_outcome h (by simpa using hp)).2]

theorem ReceiptReadsV2.mode_passes
    (hr : ReceiptReadsV2 exporter host roundId round config policy reveal entries r)
    (hg : round.Governed host config now policy reveal submissions) :
    Passes (checkMode engine r) () := by
  have hauction := hr.isAuction
  have honly := hr.isReceiptOnly
  have hwinning : isNonnegative (decimal (r "winningAmount")) = true := by
    rw [hr.winningAmount, decimal_i128Json]
    exact decide_eq_true (winningBid_nonneg hg.sound)
  have hlot : decimal (r "lotAmount") = some round.lotAmount.toInt := by
    rw [hr.lotAmount, decimal_i128Json]
  cases hmode : round.mode with
  | Auction =>
    obtain ⟨payment, lot, hpayment, hasset, hpositive⟩ := hg.consistent.auction hmode
    have hpositive : 0 < round.lotAmount.toInt := hpositive
    have hlotOk : isNonnegative (some round.lotAmount.toInt) = true := decide_eq_true hpositive.le
    have hname : ∀ a, truthy (some (addressJson exporter a)) = true := by
      intro a
      refine decide_eq_true fun hempty => ?_
      cases a with
      | account key =>
        have hhead := exporter.strkey.account key
        rw [hempty] at hhead
        cases hhead
      | contract id =>
        have hhead := exporter.strkey.contract id
        rw [hempty] at hhead
        cases hhead
    simp [checkMode, hauction.mpr hmode, hlot, hwinning, hlotOk, isPositive, hpositive,
      hr.paymentAsset, hr.lotAsset, hpayment, hasset, orNull, hname]
  | ReceiptOnly =>
    have hsettlement := hg.consistent.settlement
    rw [hmode] at hsettlement
    obtain ⟨hpayment, hasset, hzero⟩ := hsettlement
    have hzero : round.lotAmount.toInt = 0 := congrArg I128.toInt hzero
    obtain ⟨hwinner, hbid⟩ := no_outcome hg.sound hpayment
    have hwinner : round.winner = none := hwinner
    have hbid : round.winningBid.toInt = 0 := hbid
    have hdeclared : decimal (r "winningAmount") = some 0 := by
      rw [hr.winningAmount, decimal_i128Json, hbid]
    have hother : Sdk.isAuction r = false := by
      rw [← Bool.not_eq_true, hauction, hmode]
      intro h
      cases h
    have hnull : strictEq (some .null) (some .null) = true := rfl
    simp [checkMode, hother, honly.mpr hmode, hlot, hzero, hdeclared, isNonnegative,
      hr.paymentAsset,
      hr.lotAsset, hr.winner, hpayment, hasset, hwinner, orNull, hnull]

/-! ## Submissions -/

theorem evidenceJson_ok (found : Option Seal) : EvidenceOk (some (evidenceJson found)) := by
  intro v hv _ entry hentry hnull
  obtain rfl := Option.some_inj.mp hv
  have hvalue : ∃ bytes : Option Bytes, entry.2 = orNull (bytes.map hexJson) := by
    rcases List.mem_cons.mp hentry with rfl | hentry
    · exact ⟨found.map Seal.ciphertext, by cases found <;> rfl⟩
    · rw [List.mem_singleton.mp hentry]
      exact ⟨found.map Seal.auditorBlob, by cases found <;> rfl⟩
  obtain ⟨bytes, hbytes⟩ := hvalue
  rw [hbytes] at hnull ⊢
  cases bytes with
  | none => cases hnull
  | some bytes => exact isHexValue_hexJson bytes

/-- What was recorded of an envelope is what the verifier finds in it. -/
theorem SubmissionReads.envelope {state : SubmissionStateV2} {found : Option Seal} {terms : Terms}
    {s : String → JsValue} (hs : SubmissionReads engine state found s)
    (hsound : state.entry.Sound host terms) (hformat : terms.format = .envelope) :
    envelopeAmount s = state.revealedAmount.map I128.toInt ∧
      ∀ x, state.revealedEnvelope = some x → EnvelopeOk host.sha256 s := by
  have hdeclared : decimal (s "revealedAmount") = state.revealedAmount.map I128.toInt := by
    rw [hs.revealedAmount]
    cases state.revealedAmount with
    | none => rfl
    | some amount => exact decimal_i128Json amount
  cases hopened : state.revealedEnvelope with
  | none =>
    have hnone : state.revealedAmount.map I128.toInt = none := (hsound.unopened hopened).1
    rw [hnone, envelopeAmount, Sdk.revealedEnvelope, hs.revealedEnvelope, hopened]
    exact ⟨rfl, fun x hx => by cases hx⟩
  | some x =>
    obtain ⟨hhash, hreads, -, -⟩ := hsound.opened x hopened
    rw [hformat] at hreads
    obtain ⟨p, hp, hamount⟩ := hreads
    have hamount : state.revealedAmount.map I128.toInt = p.amount.map I128.toInt := hamount
    obtain ⟨y, hy⟩ := same_strings.mp ⟨p, hp⟩
    have hread : s "revealedEnvelope" = some (hexJson x) := by
      rw [hs.revealedEnvelope, hopened]; rfl
    have hdecodes : Sdk.revealedEnvelope s = .ok y := by
      simp only [Sdk.revealedEnvelope, hread, hexJson, fromHexText_toHex, bind_ok, hy]
    have hfound : envelopeAmount s = state.revealedAmount.map I128.toInt := by
      rw [envelopeAmount, hdecodes, hamount]
      exact same_amount hp hy
    refine ⟨hfound, fun _ _ => ⟨?_, fun text bytes htext hbytes => ?_, ⟨y, hdecodes⟩,
      hfound.trans hdeclared.symm⟩⟩
    · rw [hread]
      exact isHexValue_hexJson x
    · rw [hread, hexJson, Option.some_inj, Json.str.injEq] at htext
      rw [← htext, fromHexText_toHex, Except.ok.injEq] at hbytes
      refine ⟨toHex state.commitment.val, hs.commitment, ?_⟩
      rw [fromHexText_toHex, ← hbytes]
      exact congrArg (fun h => Except.ok h.val) hhash.symm

/-- The checks of one submission pass on what was written for an entry. -/
theorem SubmissionReads.ok {state : SubmissionStateV2} {found : Option Seal} {b : Address}
    {s : String → JsValue} (hs : SubmissionReads engine state found s)
    (hr : ReceiptReadsV2 exporter host roundId round config policy reveal entries r)
    (hg : round.Governed host config now policy reveal submissions)
    (hstate : submissions b = some state) : SubmissionOk engine host.sha256 r s := by
  have hentry : (round.view submissions).entry b = some state.entry := by
    show (submissions b).map SubmissionStateV2.entry = some state.entry
    rw [hstate, Option.map_some]
  have hsound := hg.sound.entries b state.entry hentry
  obtain ⟨hamount, henvelope⟩ := hs.envelope hsound rfl
  have hescrow : decimal (s "escrow") = some state.escrow.toInt := by
    rw [hs.escrow, decimal_i128Json]
  have hflag : truthy (s "valid") = state.valid := by rw [hs.valid]; rfl
  have hsealed : strictEq (s "revealedEnvelope") (some .null) = true ↔
      state.revealedEnvelope = none := by
    rw [hs.revealedEnvelope, strictEq_null, Option.some_inj,
      orNull_eq_null fun _ => Json.noConfusion]
  constructor
  case commitment => exact hs.commitment ▸ isHexOf_hexJson state.commitment
  case escrow =>
    rw [hescrow]
    exact decide_eq_true hsound.escrow.nonneg
  case amount =>
    rw [hs.revealedAmount]
    cases state.revealedAmount with
    | none => exact .inl rfl
    | some amount =>
      refine .inr ?_
      rw [Option.map_some, orNull, decimal_i128Json]
      exact Option.some_ne_none _
  case policy =>
    have hp := @policyJson_reads engine exporter policy
    have hread : ∀ key, optionalGet engine (r "policy") key =
        property engine (policyJson exporter policy) key := by
      intro key
      rw [hr.policy]
      cases policy <;> rfl
    rw [hread, hread, hp.enforced, hp.fixedEscrow]
    intro henforced hauction e f he hf
    cases hpolicy : policy with
    | none =>
      rw [hpolicy] at henforced
      cases henforced
    | some p =>
      rw [hpolicy, Option.map_some, orNull, decimal_i128Json] at hf
      rw [hescrow, (hg.obeys p hpolicy).escrows (hr.isAuction.mp hauction) b state hstate] at he
      exact Option.some_inj.mp (he.symm.trans hf)
  case sealed =>
    intro h
    rw [hflag]
    exact (hsound.unopened (hsealed.mp h)).2
  case revealed =>
    intro h
    have hsome : state.revealedEnvelope ≠ none := by
      rw [← Bool.not_eq_true, hsealed] at h
      exact h
    obtain ⟨x, hx⟩ := Option.ne_none_iff_exists'.mp hsome
    exact henvelope x hx
  case competes =>
    intro hauction hvalid
    rw [hflag] at hvalid
    obtain ⟨payment, lot, hpayment, -, -⟩ := hg.consistent.auction (hr.isAuction.mp hauction)
    obtain ⟨x, hx⟩ : ∃ x, state.revealedEnvelope = some x := by
      refine Option.ne_none_iff_exists'.mp fun hnone => ?_
      have hinvalid : state.valid = false := (hsound.unopened hnone).2
      rw [hinvalid] at hvalid
      cases hvalid
    have hadmits := (hsound.opened x hx).2.2.1
    rw [Terms.Admits, show (round.view submissions).terms.payment = some payment from hpayment]
      at hadmits
    obtain ⟨v, hv, hle, hpositive⟩ := hadmits
    exact ⟨v, _, hamount.trans hv, hescrow, hpositive rfl, hle⟩
  case settled =>
    intro hst
    rw [hs.settled]
    exact (hg.sound.settled ((hr.hasStatus .Settled).mp hst)).1 b state.entry hentry
  case evidence =>
    rw [hs.evidence]
    exact evidenceJson_ok found

/-! ## The roster and the winner -/

/-- The name of an address is no name of the object prototype. -/
theorem Strkey.encode_notMem (strkey : Strkey) (b : Address) :
    strkey.encode b ∉ objectPrototype := by
  have hother : ∀ name ∈ objectPrototype,
      name.toList.head? ≠ some 'G' ∧ name.toList.head? ≠ some 'C' := by decide
  intro hmem
  cases b with
  | account key => exact (hother _ hmem).1 (strkey.account key)
  | contract id => exact (hother _ hmem).2 (strkey.contract id)

/-- The entries of an export are found under the names of the bidders. -/
theorem submissionOf_named (json : Address → Json) {bidders : List Address} (h : bidders.Nodup)
    {b : Address} (hb : b ∈ bidders) :
    submissionOf engine (.obj (namedEntries exporter json bidders)) (addressJson exporter b) =
      .ok (exporter.strkey.encode b, some (json b)) := by
  have hfound : property engine (.obj (namedEntries exporter json bidders))
      (exporter.strkey.encode b) = some (json b) :=
    (property_obj (exporter.strkey.encode_notMem b)).trans (fieldOf_namedEntries json h hb)
  rw [submissionOf, addressJson, text, Json.text, bind_ok, hfound]
  rfl

/-- The entry that an export writes for a bidder. -/
def submissionEntry (env : Env) (store : Store) (roundId : UInt64) (b : Address) : Json :=
  ((store.submissionV2 roundId b).map fun state =>
    submissionJson state (readSeal env (store.sealedV2 roundId b))).getD .null

theorem submissionFields_named {env : Env} {store : Store} {bidders : List Address}
    (h : bidders.Nodup) {b : Address} (hb : b ∈ bidders) {state : SubmissionStateV2}
    (hstate : store.submissionV2 roundId b = some state) :
    submissionFields engine
      (.obj (namedEntries exporter (submissionEntry env store roundId) bidders))
        (addressJson exporter b) =
      some (property engine (submissionJson state (readSeal env (store.sealedV2 roundId b)))) := by
  have hentry : submissionEntry env store roundId b =
      submissionJson state (readSeal env (store.sealedV2 roundId b)) := by
    rw [submissionEntry, hstate]
    rfl
  rw [submissionFields, submissionOf_named _ h hb, hentry]
  rfl

section Entries

variable {env : Env} {store : Store}

theorem rosterOk_named
    (hg : round.Governed host config now policy reveal (store.submissionV2 roundId)) :
    RosterOk engine (round.bidders.map (addressJson exporter))
      (.obj (namedEntries exporter (submissionEntry env store roundId) round.bidders)) := by
  have hnodup : round.bidders.Nodup := hg.sound.nodup
  refine ⟨fun v hv => ?_, distinct_addresses hnodup, fun entry hentry => ?_⟩
  · obtain ⟨b, hb, rfl⟩ := List.mem_map.mp hv
    obtain ⟨state, hstate⟩ := hg.entered hb
    rw [submissionFields_named hnodup hb hstate]
    rfl
  · obtain ⟨b, hb, rfl⟩ := List.mem_map.mp hentry
    exact (hasValue_addresses round.bidders b).trans (decide_eq_true hb)

/-- Ranking named bidders is scanning the bidders. -/
theorem foldl_named {rule : ClearingRule}
    (hrule : clearingRule? (r "clearingRule") = some rule) {value : Json → Option Int}
    {bid : Address → Option Int} {bidders : List Address}
    (hbid : ∀ b ∈ bidders, value (addressJson exporter b) = bid b) :
    (bidders.map (addressJson exporter)).foldl
        (fun l b => advance (r "clearingRule") l b (value b)) none =
      (FirstBest.scan rule.Better bid bidders).map fun p => (addressJson exporter p.1, p.2) := by
  rw [foldl_advance, scan_clearingRule hrule, FirstBest.scan_rename]
  congr 1
  exact FirstBest.scan_congr hbid

theorem clearingRule_tag (rule : ClearingRule) :
    clearingRule? (some (.str rule.tag)) = some rule := by
  cases rule <;> rfl

/-- The verifier ranks the valid bids of the round. -/
theorem leader_named
    (hr : ReceiptReadsV2 exporter host roundId round config policy reveal entries r)
    (hg : round.Governed host config now policy reveal (store.submissionV2 roundId))
    (hauction : Sdk.isAuction r = true) :
    (round.bidders.map (addressJson exporter)).foldl (fun l b => advance (r "clearingRule") l b
        ((submissionFields engine (.obj (namedEntries exporter (submissionEntry env store roundId)
          round.bidders)) b).bind (competingAmount r))) none =
      (round.view (store.submissionV2 roundId)).best.map
        fun p => (addressJson exporter p.1, p.2) := by
  have hrule : clearingRule? (r "clearingRule") = some round.clearingRule :=
    hr.clearingRule ▸ clearingRule_tag round.clearingRule
  have hnodup : round.bidders.Nodup := hg.sound.nodup
  refine foldl_named hrule fun b hb => ?_
  obtain ⟨state, hstate⟩ := hg.entered hb
  have hentry : (round.view (store.submissionV2 roundId)).entry b = some state.entry := by
    show (store.submissionV2 roundId b).map SubmissionStateV2.entry = some state.entry
    rw [hstate, Option.map_some]
  have hs := @submissionJson_reads engine state (readSeal env (store.sealedV2 roundId b))
  have hflag : truthy (property engine (submissionJson state
      (readSeal env (store.sealedV2 roundId b))) "valid") = state.valid := by rw [hs.valid]; rfl
  rw [submissionFields_named hnodup hb hstate, Option.bind_some, competingAmount,
    SealedRound.validBid, hentry, Option.bind_some, Entry.validBid, hflag,
    (hs.envelope (hg.sound.entries b _ hentry) rfl).1]
  simp only [hauction, true_and]
  rfl

theorem winnerOk_named
    (hr : ReceiptReadsV2 exporter host roundId round config policy reveal entries r)
    (hg : round.Governed host config now policy reveal (store.submissionV2 roundId)) :
    WinnerOk r ((round.bidders.map (addressJson exporter)).foldl (fun l b =>
      advance (r "clearingRule") l b ((submissionFields engine (.obj (namedEntries exporter
        (submissionEntry env store roundId) round.bidders)) b).bind (competingAmount r)))
        none) := by
  intro hauction hclosed
  obtain ⟨payment, lot, hpayment, -, -⟩ := hg.consistent.auction (hr.isAuction.mp hauction)
  have hsome : (round.view (store.submissionV2 roundId)).terms.payment.isSome = true :=
    Option.isSome_iff_exists.mpr ⟨payment, hpayment⟩
  obtain ⟨w, hwinner, hbest⟩ := best_outcome hg.sound hsome
    (hclosed.imp (hr.hasStatus .Cleared).mp (hr.hasStatus .Settled).mp)
  have hwinner : round.winner = some w := hwinner
  rw [leader_named hr hg hauction, hbest, hr.winner, hr.winningAmount, hwinner, decimal_i128Json]
  exact ⟨(strictEq_addressJson w w).trans (decide_eq_true rfl), rfl⟩

/-! ## Exported receipts -/

/-- The export of a governed round fails only without its opening record. -/
theorem exportReceiptV2_eq_ok (hround : store.roundV2 roundId = some round)
    (hconfig : store.config = some config)
    (hg : round.Governed host config now (store.policyV2 roundId) (store.revealV3 roundId)
      (store.submissionV2 roundId)) {receipt : Json} :
    exportReceiptV2 exporter host env store roundId = .ok receipt ↔
      (round.protocolVersion = revealPolicyVersion → (store.revealV3 roundId).isSome = true) ∧
      receipt = receiptV2Json exporter host roundId round config (store.policyV2 roundId)
        (store.revealV3 roundId)
        (namedEntries exporter (submissionEntry env store roundId) round.bidders) := by
  have hread : ∀ b ∈ round.bidders,
      exportSubmission env store roundId b = .ok (submissionEntry env store roundId b) := by
    intro b hb
    obtain ⟨state, hstate⟩ := hg.entered hb
    rw [exportSubmission, submissionEntry, hstate]
    rfl
  have hentries : exportEntries exporter (exportSubmission env store roundId) round.bidders =
      .ok (namedEntries exporter (submissionEntry env store roundId) round.bidders) :=
    exportEntries_eq hread hg.sound.nodup
  have hsupported : ¬ (round.protocolVersion ≠ coreV2Version ∧
      round.protocolVersion ≠ revealPolicyVersion) := fun hno =>
    hg.consistent.version.elim hno.1 hno.2
  have hpolicy : ¬ (round.protocolVersion = revealPolicyVersion ∧
      store.policyV2 roundId = none) := by
    rintro ⟨h3, hnone⟩
    have hsome := hg.required h3
    rw [hnone] at hsome
    cases hsome
  rw [exportReceiptV2, hround, unwrapResult, bind_ok, hconfig, unwrapResult, bind_ok]
  simp only [throwIf_bind_eq_ok, hsupported, hpolicy, not_false_eq_true, true_and,
    hentries, bind_ok]
  unfold readRevealState
  by_cases h3 : round.protocolVersion = revealPolicyVersion
  · rw [if_pos h3]
    cases hreveal : store.revealV3 roundId with
    | none =>
      constructor
      · intro h
        cases h
      · rintro ⟨hkept, -⟩
        cases hkept h3
    | some state =>
      constructor
      · intro h
        exact ⟨fun _ => rfl, (Except.ok.inj h).symm⟩
      · rintro ⟨-, rfl⟩
        rfl
  · have hnone : store.revealV3 roundId = none := by
      cases hreveal : store.revealV3 roundId with
      | none => rfl
      | some state => exact absurd (hg.third state hreveal) h3
    rw [if_neg h3, hnone]
    constructor
    · intro h
      exact ⟨fun h => absurd h h3, (Except.ok.inj h).symm⟩
    · rintro ⟨-, rfl⟩
      rfl

/-- **The verdict on an exported receipt.** -/
theorem exported_valid_iff
    (hg : round.Governed host config now policy reveal (store.submissionV2 roundId))
    (hkept : round.protocolVersion = revealPolicyVersion → reveal.isSome = true) :
    (∃ result, verifyReceiptV2 engine host.sha256 (receiptV2Json exporter host roundId round config
        policy reveal (namedEntries exporter (submissionEntry env store roundId) round.bidders)) =
          .ok result ∧ result.valid = true) ↔
      Attestable exporter.networkPassphrase config round reveal := by
  rw [verifyReceiptV2, conclude_valid]
  generalize hentries : namedEntries exporter (submissionEntry env store roundId) round.bidders =
    entries
  have hr := @receiptV2Json_reads engine exporter host roundId round config policy reveal entries
  have hidentity := passes_checkIdentity.symm.trans
    (@ReceiptReadsV2.identity engine _ _ _ _ _ _ _ _ _ _ _ hr hg)
  have hopening := fun hsafe => passes_checkOpening.symm.trans
    (@ReceiptReadsV2.opening engine _ _ _ _ _ _ _ _ _ _ _ hr hg hkept hsafe)
  have hnodup : round.bidders.Nodup := hg.sound.nodup
  constructor
  · rintro ⟨leader, hpasses⟩
    obtain ⟨-, _, _, -, -, hok⟩ := passes_checkReceiptV2.mp hpasses
    obtain ⟨hnetwork, hsafe⟩ := hidentity.mp hok.identity
    obtain ⟨hperiod, hunopened⟩ := (hopening hsafe).mp hok.opening
    exact ⟨hnetwork, hsafe, hperiod, hunopened⟩
  · rintro ⟨hnetwork, hsafe, hperiod, hunopened⟩
    refine ⟨_, passes_checkReceiptV2.mpr ⟨Json.noConfusion, _, _, hr.bidders, hr.submissions,
      hr.hasVersion hg.consistent.version, hidentity.mpr ⟨hnetwork, hsafe⟩,
      (hopening hsafe).mpr ⟨hperiod, hunopened⟩, passes_checkPolicy.mp (hr.policy_passes hg),
      (@passes_checkMode engine _).mp (hr.mode_passes hg), ?_, ?_, rfl, ?_⟩⟩
    · rw [← hentries]
      exact rosterOk_named hg
    · intro v hv s hs
      obtain ⟨b, hb, rfl⟩ := List.mem_map.mp hv
      obtain ⟨state, hstate⟩ := hg.entered hb
      rw [← hentries, submissionFields_named hnodup hb hstate, Option.some_inj] at hs
      rw [← hs]
      exact (submissionJson_reads state _).ok hr hg hstate
    · rw [← hentries] at hr ⊢
      exact winnerOk_named hr hg

end Entries

/-- **Exported receipts of structured rounds.** A round of a run can be exported unless its opening
record is lost, and its receipt verifies exactly when it is attestable. -/
theorem exported_receipts_verify {c₀ c : Chain} {events : List Event} (hd : Deployed config c₀)
    (h : Run host c₀ events c) (hround : c.world.store.roundV2 roundId = some round)
    (exporter : Exporter) (env : Env) (engine : Engine) :
    ((∃ receipt, exportReceiptV2 exporter host env c.world.store roundId = .ok receipt) ↔
      (round.protocolVersion = revealPolicyVersion →
        (c.world.store.revealV3 roundId).isSome = true)) ∧
    ∀ receipt, exportReceiptV2 exporter host env c.world.store roundId = .ok receipt →
      ((∃ result, verifyReceiptV2 engine host.sha256 receipt = .ok result ∧ result.valid = true) ↔
        Attestable exporter.networkPassphrase config round (c.world.store.revealV3 roundId)) := by
  have hconfig := (h.sound hd.chain_sound).world.configured
  have hg := Run.governed hd h hround
  constructor
  · constructor
    · rintro ⟨receipt, hreceipt⟩
      exact ((exportReceiptV2_eq_ok hround hconfig hg).mp hreceipt).1
    · exact fun hkept => ⟨_, (exportReceiptV2_eq_ok hround hconfig hg).mpr ⟨hkept, rfl⟩⟩
  · intro receipt hreceipt
    obtain ⟨hkept, rfl⟩ := (exportReceiptV2_eq_ok hround hconfig hg).mp hreceipt
    exact exported_valid_iff hg hkept

end

/-! ## Receipts of a small sale -/

namespace SampleExport

def exporter : Exporter where
  strkey := stellarStrkey
  networkPassphrase := "Test SDF Network ; September 2015"
  contractId := stellarStrkey.encode (.contract 0)
  contract := stellarStrkey.contract 0
  exportedAt := "2026-01-01T00:00:00.000Z"

def env : Env := { toHost := Sample.host, toTransaction := Sample.tx Sample.bob 1200 }

def envelope : Bytes := envelopeBytes (I128.ofInt? 30) (List.replicate 32 7) []

/-- A sale up to its opening, with one bid of 30. -/
def opened : List Attempt :=
  [⟨Sample.tx Sample.operator 1000, .createRoundV3 Sample.saleArgs Sample.salePolicy⟩,
    ⟨Sample.tx Sample.alice 1010,
      .commitV2 1 Sample.alice (Sample.host.sha256 envelope) [1] (Sample.amount 50) [2]⟩,
    ⟨Sample.tx Sample.bob 1060, .openRevealV2 1 (Sample.signature 3)⟩]

def sold : List Attempt :=
  opened ++ [⟨Sample.tx Sample.bob 1070, .revealV2 1 Sample.alice envelope⟩,
    ⟨Sample.tx Sample.bob 1101, .clearV2 1⟩]

/-- The bid is not revealed, and clearing voids the sale. -/
def abandoned : List Attempt := opened ++ [⟨Sample.tx Sample.bob 1101, .clearV2 1⟩]

/-- The status, the Drand round and the time of the opening. -/
def summary (c : Chain) : Option (Status × Nat) × Option (Option UInt64) :=
  ((c.world.store.roundV2 1).map fun round => (round.status, round.revealRound.toNat),
    (c.world.store.revealV3 1).map RevealStateV3.openedAt)

end SampleExport

open SampleExport in
/-- The receipt of the cleared sale verifies, that of the abandoned one does not. -/
theorem exported_receipts_sample :
    (∃ c events receipt result, Run Sample.host Sample.deployed events c ∧
      exportReceiptV2 exporter Sample.host env c.world.store 1 = .ok receipt ∧
      verifyReceiptV2 integerEngine Sample.host.sha256 receipt = .ok result ∧
      result.valid = true) ∧
    ∃ c events receipt, Run Sample.host Sample.deployed events c ∧
      exportReceiptV2 exporter Sample.host env c.world.store 1 = .ok receipt ∧
      ∀ result, verifyReceiptV2 integerEngine Sample.host.sha256 receipt = .ok result →
        result.valid = false := by
  constructor
  · obtain ⟨c, events, hrun, hvalue⟩ := Chain.exec_reaches Sample.host Sample.deployed sold
      (fun c _ => summary c) (some (.Cleared, 3), some (some 1060)) (by decide +kernel)
    obtain ⟨hround, hopened⟩ := Prod.mk.inj hvalue
    obtain ⟨round, hround, hstatus⟩ := Option.map_eq_some_iff.mp hround
    obtain ⟨hstatus, hdrand⟩ := Prod.mk.inj hstatus
    obtain ⟨state, hstate, -⟩ := Option.map_eq_some_iff.mp hopened
    obtain ⟨hexport, hverify⟩ :=
      exported_receipts_verify Sample.deployed_ok hrun hround exporter env
      integerEngine
    obtain ⟨receipt, hreceipt⟩ := hexport.mpr fun _ => by rw [hstate]; rfl
    obtain ⟨result, hresult, hvalid⟩ := (hverify receipt hreceipt).mpr
      ⟨by decide, by rw [hdrand]; decide, fun _ => by decide,
        fun hvoided => by rw [hstatus] at hvoided; cases hvoided⟩
    exact ⟨c, events, receipt, result, hrun, hreceipt, hresult, hvalid⟩
  · obtain ⟨c, events, hrun, hvalue⟩ := Chain.exec_reaches Sample.host Sample.deployed abandoned
      (fun c _ => summary c) (some (.Voided, 3), some (some 1060)) (by decide +kernel)
    obtain ⟨hround, hopened⟩ := Prod.mk.inj hvalue
    obtain ⟨round, hround, hstatus⟩ := Option.map_eq_some_iff.mp hround
    obtain ⟨hstatus, -⟩ := Prod.mk.inj hstatus
    obtain ⟨state, hstate, htime⟩ := Option.map_eq_some_iff.mp hopened
    obtain ⟨hexport, hverify⟩ :=
      exported_receipts_verify Sample.deployed_ok hrun hround exporter env
      integerEngine
    obtain ⟨receipt, hreceipt⟩ := hexport.mpr fun _ => by rw [hstate]; rfl
    refine ⟨c, events, receipt, hrun, hreceipt, fun result hresult => ?_⟩
    by_contra hvalid
    have hattestable := (hverify receipt hreceipt).mp ⟨result, hresult, by simpa using hvalid⟩
    have hnone := hattestable.unopened hstatus state hstate
    rw [htime] at hnone
    cases hnone

end SubRosa.Sdk
