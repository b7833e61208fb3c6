import SubRosa.Auction.Script
import SubRosa.Sdk.Client

/-!
# Creation arguments

The builders of the client against the entry points they call: the checks of
the contract that read nothing but the arguments are those of the builder, and
what is built are the caller's values. A fallback that is given as a number
must be a safe integer besides, which the contract does not ask.
-/

namespace SubRosa

open MachineInt Invocation TokenLedger JavaScript Sdk

/-! ## What the parameters say -/

/-- The arguments are the parameters, or the defaults where there is none. -/
structure Sdk.CreateRoundV2Params.Carried (params : CreateRoundV2Params) (operator : Address)
    (args : RoundArgsV2) (settlement : SettlementConfig) : Prop where
  operator : args.operator = operator
  itemRef : args.itemRef.val = params.itemRef
  schemaRef : args.schemaRef.val = params.schemaRef
  revealRound : toBigInt params.revealRound = .ok (args.revealRound.toNat : Int)
  clearingRule : args.clearingRule = params.clearingRule.getD .HighestBid
  commitDeadline : toBigInt params.commitDeadline = .ok (args.commitDeadline.toNat : Int)
  revealDeadline : toBigInt params.revealDeadline = .ok (args.revealDeadline.toNat : Int)
  auditorPubkey : args.auditorPubkey = params.auditorPubkey
  maxParticipants : params.maxParticipants.getD 25 = .finite args.maxParticipants.toNat
  mode : settlement.mode = params.mode
  paymentAsset : settlement.paymentAsset = params.paymentAsset
  lotAsset : settlement.lotAsset = params.lotAsset
  lotAmount : settlement.lotAmount.toInt = params.lotAmount.getD 0

structure Sdk.CreatePartnerRoundV2Params.Carried (params : CreatePartnerRoundV2Params)
    (operator : Address) (args : RoundArgsV2) (policy : RoundPolicyV2) : Prop where
  round : params.toCreateRoundV2Params.Carried operator args policy.settlement
  fixedEscrow : policy.fixedEscrow.toInt = params.fixedEscrow
  eligibleParticipants : policy.eligibleParticipants = params.eligibleParticipants.getD []

def Sdk.RevealPolicyParam.Carried : RevealPolicyParam → RevealPolicy → Prop
  | .timed, .Timed => True
  | .ownerTriggered value, .OwnerTriggered fallbackAt =>
      toBigInt value = .ok (fallbackAt.toNat : Int)
  | _, _ => False

structure Sdk.CreateRoundV3Params.Carried (params : CreateRoundV3Params) (operator : Address)
    (args : RoundArgsV2) (policy : RoundPolicyV3) : Prop where
  partner : params.toCreatePartnerRoundV2Params.Carried operator args policy.partner
  reveal : params.revealPolicy.Carried policy.reveal

/-- A fallback that is given as a number is a safe integer. -/
def Sdk.RevealPolicyParam.Safe : RevealPolicyParam → Prop
  | .timed => True
  | .ownerTriggered value => value.isUnsafe = false

/-! ## The checks of the contract, by what they read -/

/-- The checks of a structured creation that read only the arguments. -/
structure RoundArgsV2.WellFormed (args : RoundArgsV2) (settlement : SettlementConfig)
    (policy : Option RoundPolicyV2) : Prop where
  someParticipant : args.maxParticipants ≠ 0
  maxParticipants : args.maxParticipants ≤ maxV2Participants
  settles : settlement.Valid
  admits : ∀ p, policy = some p → p.Valid settlement.mode args.maxParticipants

/-- The other checks: of the authority, the clock, the Drand schedule and the auditor key. -/
structure RoundArgsV2.Timely (args : RoundArgsV2) (config : GlobalConfig) (env : Env) : Prop where
  auth : env.auths args.operator = true
  revealRound : args.revealRound ≠ 0
  auditorPubkey : args.auditorPubkey.length ≤ maxAuditorPubkey
  beforeDrand : args.commitDeadline < timeOfRound config args.revealRound
  afterDrand : timeOfRound config args.revealRound < args.revealDeadline
  opens : env.timestamp < args.commitDeadline
  duration : saturatingSub args.revealDeadline env.timestamp ≤ maxRoundDurationSecs

/-- The minimal window of the opening policy. -/
def RevealPolicy.LeavesWindow (revealDeadline : UInt64) : RevealPolicy → Prop
  | .Timed => True
  | .OwnerTriggered fallbackAt =>
      minRevealWindow ≤ (checkedSub revealDeadline fallbackAt).getD 0

def RevealPolicy.AfterDrand (privacyAt : UInt64) : RevealPolicy → Prop
  | .Timed => True
  | .OwnerTriggered fallbackAt => privacyAt < fallbackAt

theorem accepted_iff {args : RoundArgsV2} {settlement : SettlementConfig}
    {policy : Option RoundPolicyV2} {config : GlobalConfig} {env : Env} :
    args.Accepted settlement policy config env ↔
      args.WellFormed settlement policy ∧ args.Timely config env := by
  constructor
  · intro h
    exact ⟨⟨h.someParticipant, h.maxParticipants, h.settles, h.admits⟩,
      ⟨h.auth, h.revealRound, h.auditorPubkey, h.beforeDrand, h.afterDrand, h.opens, h.duration⟩⟩
  · rintro ⟨hform, htime⟩
    exact ⟨htime.auth, htime.revealRound, hform.someParticipant, hform.maxParticipants,
      htime.auditorPubkey, htime.beforeDrand, htime.afterDrand, htime.opens, htime.duration,
      hform.settles, hform.admits⟩

theorem reveal_valid_iff {privacyAt revealDeadline : UInt64} {policy : RevealPolicy} :
    policy.Valid privacyAt revealDeadline ↔
      policy.LeavesWindow revealDeadline ∧ policy.AfterDrand privacyAt := by
  cases policy with
  | Timed => exact ⟨fun _ => ⟨trivial, trivial⟩, fun _ => trivial⟩
  | OwnerTriggered _ => exact and_comm

/-! ## Arguments before they are encoded -/

/-- The arguments of the contract as the builder makes them. -/
def RoundArgsV2.built (args : RoundArgsV2) : V2RoundArgs where
  operator := args.operator
  itemRef := args.itemRef.val
  schemaRef := args.schemaRef.val
  revealRound := args.revealRound.toNat
  clearingRule := args.clearingRule
  commitDeadline := args.commitDeadline.toNat
  revealDeadline := args.revealDeadline.toNat
  auditorPubkey := args.auditorPubkey
  maxParticipants := .finite args.maxParticipants.toNat

def SettlementConfig.built (settlement : SettlementConfig) : Settlement where
  mode := settlement.mode
  paymentAsset := settlement.paymentAsset
  lotAsset := settlement.lotAsset
  lotAmount := settlement.lotAmount.toInt

def RoundPolicyV2.built (policy : RoundPolicyV2) : PartnerPolicy where
  settlement := policy.settlement.built
  fixedEscrow := policy.fixedEscrow.toInt
  eligibleParticipants := policy.eligibleParticipants

theorem RoundArgsV2.encode_built (encoder : Encoder) (args : RoundArgsV2) :
    args.built.encode encoder = .ok args := by
  have hmax : (Number.finite args.maxParticipants.toNat).toInt = args.maxParticipants.toNat :=
    Rat.num_natCast _
  simp only [V2RoundArgs.encode, built, encoder.u64_toNat, encoder.bytesN_val, hmax,
    encoder.u32_toNat, encoded_some]
  rfl

theorem SettlementConfig.encode_built (encoder : Encoder) (settlement : SettlementConfig) :
    settlement.built.encode encoder = .ok settlement := by
  simp only [Settlement.encode, built, encoder.i128_toInt, encoded_some]
  rfl

theorem RoundPolicyV2.encode_built (encoder : Encoder) (policy : RoundPolicyV2) :
    policy.built.encode encoder = .ok policy := by
  simp only [PartnerPolicy.encode, built, policy.settlement.encode_built encoder,
    encoder.i128_toInt,
    encoded_some]
  rfl

/-! ## The builders -/

section

variable {operator : Address} {args : RoundArgsV2}

theorem configErrorIf_eq_ok {c : Prop} [Decidable c] {message : String} {u : Unit} :
    configErrorIf c message = .ok u ↔ ¬ c := by
  unfold configErrorIf
  split
  · next h => exact ⟨nofun, fun hn => absurd h hn⟩
  · next h => exact ⟨fun _ => h, fun _ => rfl⟩

/-- The cap on the participants, in numbers. -/
theorem participants_iff (n : UInt32) :
    ¬ ((!(Number.finite n.toNat).isInteger) = true ∨ (Number.finite n.toNat).lt 1 = true ∨
      maxV2ParticipantsNumber.lt (.finite n.toNat) = true) ↔ n ≠ 0 ∧ n ≤ maxV2Participants := by
  have hinteger : (Number.finite n.toNat).isInteger = true := by
    rw [Number.isInteger, Rat.den_natCast, decide_eq_true_eq]
  have hone : (Number.finite n.toNat).lt 1 = true ↔ n = 0 := by
    show decide ((n.toNat : ℚ) < ((1 : ℕ) : ℚ)) = true ↔ n = 0
    rw [decide_eq_true_eq, Nat.cast_lt, ← UInt32.toNat_inj]
    exact Nat.lt_one_iff
  have hmax : maxV2ParticipantsNumber.lt (.finite n.toNat) = true ↔ maxV2Participants < n := by
    show decide (((25 : ℕ) : ℚ) < (n.toNat : ℚ)) = true ↔ _
    rw [decide_eq_true_eq, Nat.cast_lt, UInt32.lt_iff_toNat_lt]
    rfl
  rw [hinteger, hone, hmax, not_or, not_or, UInt32.not_lt]
  exact and_iff_right Bool.false_ne_true

/-- The settlement that the builder lets through is the one the contract does. -/
theorem settlement_iff {mode : RoundMode} {paymentAsset lotAsset : Option Address} {lotAmount : Int}
    {settlement : SettlementConfig} (hmode : settlement.mode = mode)
    (hpayment : settlement.paymentAsset = paymentAsset) (hlot : settlement.lotAsset = lotAsset)
    (hamount : settlement.lotAmount.toInt = lotAmount) :
    ¬ (mode = .Auction ∧ (paymentAsset = none ∨ lotAsset = none ∨ lotAmount ≤ 0)) ∧
      ¬ (mode = .ReceiptOnly ∧ (paymentAsset ≠ none ∨ lotAsset ≠ none ∨ lotAmount ≠ 0)) ↔
        settlement.Valid := by
  unfold SettlementConfig.Valid
  rw [hmode]
  subst hpayment hlot hamount
  cases mode with
  | Auction =>
    simp only [reduceCtorEq, false_and, not_false_eq_true, and_true, true_and, not_or, not_le,
      I128.lt_def, Option.isSome_iff_ne_none]
    rfl
  | ReceiptOnly =>
    simp only [reduceCtorEq, false_and, not_false_eq_true, true_and, not_or, not_not]
    refine and_congr_right fun _ => and_congr_right fun _ => ?_
    show settlement.lotAmount.toInt = (0 : I128).toInt ↔ _
    exact I128.toInt_inj

theorem v2RoundArgs_eq_ok {params : CreateRoundV2Params} {settlement : SettlementConfig}
    (h : params.Carried operator args settlement) {made : V2RoundArgs × Settlement} :
    v2RoundArgs params operator = .ok made ↔
      args.WellFormed settlement none ∧ made = (args.built, settlement.built) := by
  have hform : args.WellFormed settlement none ↔
      (args.maxParticipants ≠ 0 ∧ args.maxParticipants ≤ maxV2Participants) ∧ settlement.Valid :=
    ⟨fun h => ⟨⟨h.someParticipant, h.maxParticipants⟩, h.settles⟩,
      fun h => ⟨h.1.1, h.1.2, h.2, fun _ hp => absurd hp (Option.some_ne_none _).symm⟩⟩
  have hmade : (args.built, settlement.built) = (⟨operator, params.itemRef, params.schemaRef,
      args.revealRound.toNat, params.clearingRule.getD .HighestBid, args.commitDeadline.toNat,
      args.revealDeadline.toNat, params.auditorPubkey, .finite args.maxParticipants.toNat⟩,
      ⟨params.mode, params.paymentAsset, params.lotAsset, params.lotAmount.getD 0⟩) := by
    rw [← h.operator, ← h.itemRef, ← h.schemaRef, ← h.clearingRule, ← h.auditorPubkey, ← h.mode,
      ← h.paymentAsset, ← h.lotAsset, ← h.lotAmount]
    rfl
  have hmax : params.maxParticipants.getD maxV2ParticipantsNumber =
      .finite args.maxParticipants.toNat := h.maxParticipants
  rw [hform, ← participants_iff, ← settlement_iff h.mode h.paymentAsset h.lotAsset h.lotAmount,
    hmade, v2RoundArgs, hmax, h.revealRound, h.commitDeadline, h.revealDeadline]
  simp only [bind_eq_ok, configErrorIf_eq_ok, exists_const, Except.ok.injEq]
  constructor
  · rintro ⟨hcap, hauction, hreceipt, _, rfl, _, rfl, _, rfl, hmade⟩
    exact ⟨⟨hcap, hauction, hreceipt⟩, (Except.ok.inj hmade).symm⟩
  · rintro ⟨⟨hcap, hauction, hreceipt⟩, rfl⟩
    exact ⟨hcap, hauction, hreceipt, _, rfl, _, rfl, _, rfl, rfl⟩

/-- The policy that the builder lets through is the one the contract does. -/
theorem policy_valid_iff {mode : RoundMode} {maxParticipants : UInt32} {policy : RoundPolicyV2} :
    policy.Valid mode maxParticipants ↔
      (¬ (mode = .Auction ∧ policy.fixedEscrow.toInt ≤ 0) ∧
        ¬ (mode = .ReceiptOnly ∧ policy.fixedEscrow.toInt ≠ 0)) ∧
      policy.eligibleParticipants.length ≤ maxParticipants.toNat ∧
        policy.eligibleParticipants.Nodup := by
  refine and_congr_left fun _ => ?_
  cases mode with
  | Auction =>
    simp only [reduceCtorEq, false_and, not_false_eq_true, and_true, true_and, not_le, I128.lt_def]
    rfl
  | ReceiptOnly =>
    simp only [reduceCtorEq, false_and, not_false_eq_true, true_and, not_not]
    show _ ↔ policy.fixedEscrow.toInt = (0 : I128).toInt
    exact I128.toInt_inj.symm

theorem wellFormed_partner {settlement : SettlementConfig} {policy : RoundPolicyV2} :
    args.WellFormed settlement (some policy) ↔
      args.WellFormed settlement none ∧ policy.Valid settlement.mode args.maxParticipants := by
  constructor
  · intro h
    exact ⟨⟨h.someParticipant, h.maxParticipants, h.settles,
      fun _ hp => absurd hp (Option.some_ne_none _).symm⟩, h.admits policy rfl⟩
  · rintro ⟨h, hvalid⟩
    refine ⟨h.someParticipant, h.maxParticipants, h.settles, ?_⟩
    rintro _ ⟨⟩
    exact hvalid

theorem partnerV2RoundArgs_eq_ok {params : CreatePartnerRoundV2Params} {policy : RoundPolicyV2}
    (h : params.Carried operator args policy) {made : V2RoundArgs × PartnerPolicy} :
    partnerV2RoundArgs params operator = .ok made ↔
      args.WellFormed policy.settlement (some policy) ∧ made = (args.built, policy.built) := by
  have hcap : ∀ l : List Address,
      ¬ (args.built.maxParticipants.lt (.finite l.length)) = true ↔
        l.length ≤ args.maxParticipants.toNat := by
    intro l
    show ¬ decide ((args.maxParticipants.toNat : ℚ) < (l.length : ℚ)) = true ↔ _
    rw [decide_eq_true_eq, Nat.cast_lt, not_lt]
  rw [wellFormed_partner, partnerV2RoundArgs, policy_valid_iff, h.round.mode, ← h.fixedEscrow,
    ← h.eligibleParticipants]
  simp only [bind_eq_ok, v2RoundArgs_eq_ok h.round, configErrorIf_eq_ok, exists_const]
  constructor
  · rintro ⟨_, ⟨hround, rfl⟩, hauction, hreceipt, hlength, hnodup, hmade⟩
    exact ⟨⟨hround, ⟨hauction, hreceipt⟩, (hcap _).mp hlength, not_not.mp hnodup⟩,
      (Except.ok.inj hmade).symm⟩
  · rintro ⟨⟨hround, ⟨hauction, hreceipt⟩, hlength, hnodup⟩, rfl⟩
    exact ⟨_, ⟨hround, rfl⟩, hauction, hreceipt, (hcap _).mpr hlength, not_not.mpr hnodup, rfl⟩

/-- The window of a fallback that is set, in big integers. -/
theorem window_iff {fallbackAt revealDeadline : UInt64} (hpos : 0 < fallbackAt) :
    ¬ ((fallbackAt.toNat : Int) ≤ 0 ∨ 2 ^ 64 - 1 < (fallbackAt.toNat : Int) ∨
      (revealDeadline.toNat : Int) - fallbackAt.toNat < 300) ↔
        minRevealWindow ≤ (checkedSub revealDeadline fallbackAt).getD 0 := by
  have hlt := fallbackAt.toNat_lt
  have hpos : 0 < fallbackAt.toNat := UInt64.lt_iff_toNat_lt.mp hpos
  have hwindow : minRevealWindow.toNat = 300 := rfl
  rw [UInt64.le_iff_toNat_le, hwindow, checkedSub]
  split
  · next hle =>
    rw [Option.getD_some, UInt64.toNat_sub_of_le _ _ (UInt64.le_iff_toNat_le.mpr hle)]
    omega
  · next hgt =>
    rw [Option.getD_none, UInt64.toNat_zero]
    omega

theorem revealPolicyArg_eq_ok {param : RevealPolicyParam} {policy made : RevealPolicy}
    {privacyAt revealDeadline : UInt64} (h : param.Carried policy)
    (hafter : policy.AfterDrand privacyAt) (hsafe : param.Safe) :
    revealPolicyArg revealDeadline.toNat param = .ok made ↔
      policy.LeavesWindow revealDeadline ∧ made = policy := by
  cases param with
  | timed =>
    cases policy with
    | Timed => exact ⟨fun hmade => ⟨trivial, (Except.ok.inj hmade).symm⟩, fun h => by rw [h.2]; rfl⟩
    | OwnerTriggered _ => exact absurd h id
  | ownerTriggered value =>
    cases policy with
    | Timed => exact absurd h id
    | OwnerTriggered fallbackAt =>
      have hpos : 0 < fallbackAt := UInt64.lt_of_le_of_lt UInt64.zero_le hafter
      have hvalue : toBigInt value = .ok (fallbackAt.toNat : Int) := h
      have hsafe : value.isUnsafe = false := hsafe
      rw [revealPolicyArg, hsafe, hvalue]
      simp only [bind_eq_ok, configErrorIf_eq_ok, exists_const, Except.ok.injEq]
      constructor
      · rintro ⟨-, _, rfl, hwindow, hmade⟩
        rw [Int.toNat_natCast, UInt64.ofNat_toNat] at hmade
        exact ⟨(window_iff hpos).mp hwindow, (Except.ok.inj hmade).symm⟩
      · rintro ⟨hwindow, rfl⟩
        refine ⟨Bool.false_ne_true, _, rfl, (window_iff hpos).mpr hwindow, ?_⟩
        rw [Int.toNat_natCast, UInt64.ofNat_toNat]
        rfl

theorem v3RoundArgs_eq_ok {params : CreateRoundV3Params} {policy : RoundPolicyV3}
    {privacyAt : UInt64} (h : params.Carried operator args policy)
    (hafter : policy.reveal.AfterDrand privacyAt) (hsafe : params.revealPolicy.Safe)
    {made : V2RoundArgs × PartnerPolicy × RevealPolicy} :
    v3RoundArgs params operator = .ok made ↔
      (args.WellFormed policy.partner.settlement (some policy.partner) ∧
        policy.reveal.LeavesWindow args.revealDeadline) ∧
      made = (args.built, policy.partner.built, policy.reveal) := by
  rw [v3RoundArgs]
  simp only [bind_eq_ok, partnerV2RoundArgs_eq_ok h.partner]
  constructor
  · rintro ⟨_, ⟨hform, rfl⟩, reveal, hreveal, hmade⟩
    obtain ⟨hwindow, rfl⟩ := (revealPolicyArg_eq_ok h.reveal hafter hsafe).mp hreveal
    exact ⟨⟨hform, hwindow⟩, (Except.ok.inj hmade).symm⟩
  · rintro ⟨⟨hform, hwindow⟩, rfl⟩
    have hreveal := (revealPolicyArg_eq_ok h.reveal hafter hsafe).mpr ⟨hwindow, rfl⟩
    exact ⟨_, ⟨hform, rfl⟩, _, hreveal, rfl⟩

end

/-! ## The entry points -/

/-- There is an id left, and the operator can hand over the lot. -/
def RoundArgsV2.Payable (args : RoundArgsV2) (settlement : SettlementConfig) (env : Env)
    (w : World) : Prop :=
  (∃ id : UInt64, id.toNat = w.store.lastId + 1) ∧
    ∃ c, transferAll? env.accepts w.balances (args.lot settlement env.currentContract) = some c

section

variable {config : GlobalConfig} {w : World} {env : Env} {args : RoundArgsV2}

theorem createRoundV2Impl_accepts (hc : w.store.config = some config)
    {settlement : SettlementConfig} {policy : Option RoundPolicyV2} :
    (∃ id f', Yields (createRoundV2Impl args settlement policy) env w.frame id f') ↔
      args.WellFormed settlement policy ∧ args.Timely config env ∧
        args.Payable settlement env w := by
  simp only [yields_createRoundV2Impl hc, accepted_iff]
  constructor
  · rintro ⟨id, _, ⟨hform, htime⟩, hid, c, hpaid, -⟩
    exact ⟨hform, htime, ⟨id, hid⟩, c, hpaid⟩
  · rintro ⟨hform, htime, ⟨id, hid⟩, c, hpaid⟩
    exact ⟨id, _, ⟨hform, htime⟩, hid, c, hpaid, rfl⟩

theorem createRoundV3_accepts (hc : w.store.config = some config) {policy : RoundPolicyV3} :
    (∃ id f', Yields (createRoundV3 args policy) env w.frame id f') ↔
      (args.WellFormed policy.partner.settlement (some policy.partner) ∧
        policy.reveal.LeavesWindow args.revealDeadline) ∧
      (args.Timely config env ∧ policy.reveal.AfterDrand (timeOfRound config args.revealRound)) ∧
        args.Payable policy.partner.settlement env w := by
  simp only [yields_createRoundV3 hc, accepted_iff, reveal_valid_iff]
  constructor
  · rintro ⟨id, _, ⟨hwindow, hafter⟩, ⟨hform, htime⟩, hid, c, hpaid, -⟩
    exact ⟨⟨hform, hwindow⟩, ⟨htime, hafter⟩, ⟨id, hid⟩, c, hpaid⟩
  · rintro ⟨⟨hform, hwindow⟩, ⟨htime, hafter⟩, ⟨id, hid⟩, c, hpaid⟩
    exact ⟨id, _, ⟨hwindow, hafter⟩, ⟨hform, htime⟩, hid, c, hpaid, rfl⟩

end

/-- Each builder accepts the parameters just when they pass what its entry point checks of the
arguments alone, it builds these arguments, and the entry point checks nothing else but the clock,
the schedule, the auditor key, the authority and the lot. A fallback that is given as a number is
taken to be safe. -/
theorem creation_validated (encoder : Encoder) :
    (∀ (params : CreateRoundV2Params) (operator : Address) (args : RoundArgsV2)
      (settlement : SettlementConfig), params.Carried operator args settlement →
      ((∃ made, v2RoundArgs params operator = .ok made) ↔ args.WellFormed settlement none) ∧
      ∀ round given, v2RoundArgs params operator = .ok (round, given) →
        round.encode encoder = .ok args ∧ given.encode encoder = .ok settlement) ∧
    (∀ (params : CreatePartnerRoundV2Params) (operator : Address) (args : RoundArgsV2)
      (policy : RoundPolicyV2), params.Carried operator args policy →
      ((∃ made, partnerV2RoundArgs params operator = .ok made) ↔
        args.WellFormed policy.settlement (some policy)) ∧
      ∀ round given, partnerV2RoundArgs params operator = .ok (round, given) →
        round.encode encoder = .ok args ∧ given.encode encoder = .ok policy) ∧
    (∀ (params : CreateRoundV3Params) (operator : Address) (args : RoundArgsV2)
      (policy : RoundPolicyV3) (privacyAt : UInt64), params.Carried operator args policy →
      policy.reveal.AfterDrand privacyAt → params.revealPolicy.Safe →
      ((∃ made, v3RoundArgs params operator = .ok made) ↔
        args.WellFormed policy.partner.settlement (some policy.partner) ∧
          policy.reveal.LeavesWindow args.revealDeadline) ∧
      ∀ round given reveal, v3RoundArgs params operator = .ok (round, given, reveal) →
        round.encode encoder = .ok args ∧ given.encode encoder = .ok policy.partner ∧
          reveal = policy.reveal) ∧
    ∀ (config : GlobalConfig) (w : World) (env : Env) (args : RoundArgsV2),
      w.store.config = some config →
      (∀ settlement, (∃ id f', Yields (createRoundV2 args settlement) env w.frame id f') ↔
        args.WellFormed settlement none ∧ args.Timely config env ∧
          args.Payable settlement env w) ∧
      (∀ policy, (∃ id f', Yields (createPartnerRoundV2 args policy) env w.frame id f') ↔
        args.WellFormed policy.settlement (some policy) ∧ args.Timely config env ∧
          args.Payable policy.settlement env w) ∧
      ∀ policy, (∃ id f', Yields (createRoundV3 args policy) env w.frame id f') ↔
        (args.WellFormed policy.partner.settlement (some policy.partner) ∧
          policy.reveal.LeavesWindow args.revealDeadline) ∧
        (args.Timely config env ∧
          policy.reveal.AfterDrand (timeOfRound config args.revealRound)) ∧
        args.Payable policy.partner.settlement env w := by
  refine ⟨fun params operator args settlement h => ⟨?_, fun round given hmade => ?_⟩,
    fun params operator args policy h => ⟨?_, fun round given hmade => ?_⟩,
    fun params operator args policy privacyAt h hafter hsafe =>
      ⟨?_, fun round given reveal hmade => ?_⟩,
    fun config w env args hc => ⟨fun settlement => createRoundV2Impl_accepts hc,
      fun policy => createRoundV2Impl_accepts hc, fun policy => createRoundV3_accepts hc⟩⟩
  · simp only [v2RoundArgs_eq_ok h, exists_and_left, exists_eq, and_true]
  · obtain ⟨-, hmade⟩ := (v2RoundArgs_eq_ok h).mp hmade
    obtain ⟨rfl, rfl⟩ := Prod.mk.inj hmade
    exact ⟨args.encode_built encoder, settlement.encode_built encoder⟩
  · simp only [partnerV2RoundArgs_eq_ok h, exists_and_left, exists_eq, and_true]
  · obtain ⟨-, hmade⟩ := (partnerV2RoundArgs_eq_ok h).mp hmade
    obtain ⟨rfl, rfl⟩ := Prod.mk.inj hmade
    exact ⟨args.encode_built encoder, policy.encode_built encoder⟩
  · simp only [v3RoundArgs_eq_ok h hafter hsafe, exists_and_left, exists_eq, and_true]
  · obtain ⟨-, hmade⟩ := (v3RoundArgs_eq_ok h hafter hsafe).mp hmade
    obtain ⟨rfl, hrest⟩ := Prod.mk.inj hmade
    obtain ⟨rfl, rfl⟩ := Prod.mk.inj hrest
    exact ⟨args.encode_built encoder, policy.partner.encode_built encoder, rfl⟩

namespace SampleCreation

/-- The parameters of a sale that its operator opens. -/
def sale : CreateRoundV3Params where
  itemRef := (Sample.padded 32 []).val
  schemaRef := (Sample.padded 32 []).val
  mode := .Auction
  paymentAsset := some Sample.config.usdc
  lotAsset := some Sample.lotAsset
  lotAmount := some 7
  revealRound := .bigint 3
  commitDeadline := .bigint 1050
  revealDeadline := .bigint 1500
  auditorPubkey := []
  maxParticipants := some 5
  clearingRule := none
  operator := none
  fixedEscrow := 50
  eligibleParticipants := none
  revealPolicy := .ownerTriggered (.number (.finite (1200 : ℕ)))

theorem sale_carried : sale.Carried Sample.operator Sample.ownedArgs Sample.ownedPolicy := by
  have hfallback : toBigInt (.number (.finite (1200 : ℕ))) = .ok (1200 : ℕ) := by
    rw [toBigInt, if_pos (by decide +kernel), Number.toInt, Rat.num_natCast]
  exact ⟨⟨⟨rfl, rfl, rfl, rfl, rfl, rfl, rfl, rfl, rfl, rfl, rfl, rfl, by decide +kernel⟩,
    by decide +kernel, rfl⟩, hfallback⟩

end SampleCreation

open SampleCreation in
/-- The sale is built with the arguments of the contract, and the contract makes it. -/
theorem creation_validated_sample :
    (∃ round given reveal, v3RoundArgs sale Sample.operator = .ok (round, given, reveal) ∧
      round.encode .strict = .ok Sample.ownedArgs ∧
      given.encode .strict = .ok Sample.ownedPolicy.partner ∧
      reveal = Sample.ownedPolicy.reveal) ∧
    ∃ id f', Yields (createRoundV3 Sample.ownedArgs Sample.ownedPolicy)
      ⟨Sample.host, Sample.tx Sample.operator 1000⟩ Sample.deployed.world.frame id f' := by
  have hform : Sample.ownedArgs.WellFormed Sample.ownedPolicy.partner.settlement
      (some Sample.ownedPolicy.partner) := by
    refine ⟨by decide, by decide, ⟨rfl, rfl, by decide +kernel⟩, ?_⟩
    rintro _ ⟨⟩
    have hescrow : 0 < Sample.amount 50 := by decide +kernel
    exact ⟨hescrow, by decide, List.nodup_nil⟩
  have hwindow : Sample.ownedPolicy.reveal.LeavesWindow Sample.ownedArgs.revealDeadline := by
    show minRevealWindow ≤ _
    decide
  have hafter : Sample.ownedPolicy.reveal.AfterDrand 1060 := by
    show (1060 : UInt64) < _
    decide
  obtain ⟨-, -, hbuilder, hcontract⟩ := creation_validated .strict
  obtain ⟨hbuilds, hencodes⟩ := hbuilder _ _ _ _ 1060 sale_carried hafter rfl
  obtain ⟨⟨round, given, reveal⟩, hmade⟩ := hbuilds.mpr ⟨hform, hwindow⟩
  refine ⟨⟨round, given, reveal, hmade, hencodes _ _ _ hmade⟩, ?_⟩
  refine ((hcontract Sample.config _ _ _ rfl).2.2 _).mpr ⟨⟨hform, hwindow⟩, ⟨?_, ?_⟩, ?_⟩
  · exact ⟨by decide, by decide, by decide, by decide, by decide, by decide, by decide⟩
  · exact hafter
  · refine ⟨⟨1, rfl⟩, Option.isSome_iff_exists.mp ?_⟩
    decide +kernel

namespace SampleCreation

/-- A receipt-only round whose fallback is set as the number `2 ^ 53`. -/
def params : CreateRoundV3Params where
  itemRef := (BytesN.fill 32 1).val
  schemaRef := (BytesN.fill 32 2).val
  mode := .ReceiptOnly
  paymentAsset := none
  lotAsset := none
  lotAmount := none
  revealRound := .bigint 1
  commitDeadline := .bigint 1
  revealDeadline := .bigint (2 ^ 53 + 300)
  auditorPubkey := []
  maxParticipants := none
  clearingRule := none
  operator := none
  fixedEscrow := 0
  eligibleParticipants := none
  revealPolicy := .ownerTriggered (.number (.finite (2 ^ 53 : ℕ)))

def args : RoundArgsV2 where
  operator := .account 1
  itemRef := BytesN.fill 32 1
  schemaRef := BytesN.fill 32 2
  revealRound := 1
  clearingRule := .HighestBid
  commitDeadline := 1
  revealDeadline := UInt64.ofNat (2 ^ 53 + 300)
  auditorPubkey := []
  maxParticipants := 25

def policy : RoundPolicyV3 :=
  ⟨⟨⟨.ReceiptOnly, none, none, 0⟩, 0, []⟩, .OwnerTriggered (UInt64.ofNat (2 ^ 53))⟩

end SampleCreation

open SampleCreation in
theorem creation_validated_fails :
    ¬ ∀ (params : CreateRoundV3Params) (operator : Address) (args : RoundArgsV2)
      (policy : RoundPolicyV3) (privacyAt : UInt64), params.Carried operator args policy →
      policy.reveal.AfterDrand privacyAt →
      ((∃ made, v3RoundArgs params operator = .ok made) ↔
        args.WellFormed policy.partner.settlement (some policy.partner) ∧
          policy.reveal.LeavesWindow args.revealDeadline) := by
  intro hclaim
  have hinteger : (Number.finite (2 ^ 53 : ℕ)).isInteger = true := by decide +kernel
  have hvalue : toBigInt (.number (.finite (2 ^ 53 : ℕ))) = .ok (2 ^ 53 : ℕ) := by
    rw [toBigInt, if_pos hinteger, Number.toInt, Rat.num_natCast]
  have hcarried : params.Carried (.account 1) args policy :=
    ⟨⟨⟨rfl, rfl, rfl, rfl, rfl, rfl, rfl, rfl, rfl, rfl, rfl, rfl, rfl⟩, rfl, rfl⟩, hvalue⟩
  have hform : args.WellFormed policy.partner.settlement (some policy.partner) := by
    refine ⟨by decide, by decide, ⟨rfl, rfl, rfl⟩, ?_⟩
    rintro _ ⟨⟩
    exact ⟨rfl, by decide, List.nodup_nil⟩
  have hwindow : policy.reveal.LeavesWindow args.revealDeadline := by
    show minRevealWindow ≤ _
    decide
  obtain ⟨made, hmade⟩ := (hclaim params (.account 1) args policy 1 hcarried
    (by show (1 : UInt64) < _; decide)).mpr ⟨hform, hwindow⟩
  have hrefused : (v3RoundArgs params (.account 1)).toOption.isSome = false := by decide +kernel
  rw [hmade] at hrefused
  cases hrefused

end SubRosa
