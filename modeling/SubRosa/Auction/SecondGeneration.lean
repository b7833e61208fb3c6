import SubRosa.Auction.FirstGeneration

/-!
# Calls of the second and third generation

For each structured entry point on a round: when it succeeds on a sound world
and what it leaves. The opening rules of version 3 are the only place where
the two versions differ.
-/

namespace SubRosa

open MachineInt Invocation TokenLedger BigEndian

section

variable {env : Env} {config : GlobalConfig} {now : Nat} {w : World} {id : UInt64}
  {round : RoundV2}

theorem RoundV2.hold (round : RoundV2) (id : UInt64) (s : Store) :
    (submissionRecords id).Hold s (round.view (s.submissionV2 id)) := fun _ => rfl

theorem World.Sound.roundV2_sound (h : w.Sound env.toHost config now)
    (hr : w.store.roundV2 id = some round) :
    w.view (.v2 id) = some (round.view (w.store.submissionV2 id)) ∧
      (round.view (w.store.submissionV2 id)).Sound env.toHost config now := by
  have hview : w.view (.v2 id) = some (round.view (w.store.submissionV2 id)) :=
    World.view_roundV2 hr
  exact ⟨hview, h.views _ _ hview⟩

/-- An auction names both of its assets. -/
theorem RoundV2.Consistent.auction (h : round.Consistent) (hm : round.mode = .Auction) :
    ∃ payment lot, round.paymentAsset = some payment ∧ round.lotAsset = some lot ∧
      0 < round.lotAmount := by
  have hs := h.settlement
  rw [hm] at hs
  obtain ⟨payment, hp⟩ := Option.isSome_iff_exists.mp hs.1
  obtain ⟨lot, hl⟩ := Option.isSome_iff_exists.mp hs.2.1
  exact ⟨payment, lot, hp, hl, hs.2.2⟩

theorem RoundV2.Consistent.receiptOnly (h : round.Consistent) (hm : round.mode = .ReceiptOnly) :
    round.paymentAsset = none ∧ round.lotAsset = none := by
  have hs := h.settlement
  rw [hm] at hs
  exact ⟨hs.1, hs.2.1⟩

/-- The mode can be read off the payment asset. -/
theorem RoundV2.Consistent.mode (h : round.Consistent) :
    round.mode = .Auction ↔ round.paymentAsset.isSome = true := by
  cases hm : round.mode with
  | Auction =>
    obtain ⟨payment, -, hp, -⟩ := h.auction hm
    simp [hp]
  | ReceiptOnly => simp [(h.receiptOnly hm).1]

/-! ## What is written -/

/-- The store after one round, its submissions, its seals and its opening
state were written. -/
def Store.writeRoundV2 (s : Store) (id : UInt64) (round : RoundV2)
    (submissions : Address → Option SubmissionStateV2) (seals : Address → Option SealEntry)
    (reveal : Option RevealStateV3) : Store :=
  { s with
    roundV2 := Function.update s.roundV2 id (some round)
    submissionV2 := Function.update s.submissionV2 id submissions
    sealedV2 := Function.update s.sealedV2 id seals
    revealV3 := Function.update s.revealV3 id reveal }

theorem Store.writeRoundV2_view (s : Store) (round : RoundV2)
    (submissions : Address → Option SubmissionStateV2) (seals : Address → Option SealEntry)
    (reveal : Option RevealStateV3) (b : Balances) :
    World.view ⟨s.writeRoundV2 id round submissions seals reveal, b⟩ (.v2 id) =
      some (round.view submissions) := by
  simp [World.view, Store.writeRoundV2]

theorem Store.setRoundV2_eq (s : Store) (id : UInt64) (round : RoundV2) :
    s.setRoundV2 id round =
      s.writeRoundV2 id round (s.submissionV2 id) (s.sealedV2 id) (s.revealV3 id) := by
  simp [Store.setRoundV2, Store.writeRoundV2]

theorem Store.writeRoundV2_evolves {s : Store} (hr : s.roundV2 id = some round) (status : Status)
    (bidders : List Address) (winner : Option Address) (winningBid : I128)
    (submissions : Address → Option SubmissionStateV2) (seals : Address → Option SealEntry)
    {reveal : Option RevealStateV3}
    (hreveal : reveal.map RevealStateV3.policy = (s.revealV3 id).map RevealStateV3.policy) :
    s.Evolves (.v2 id) (s.writeRoundV2 id { round with status, bidders, winner, winningBid }
      submissions seals reveal) := by
  have hne : ∀ {j : UInt64}, RoundKey.v2 j ≠ .v2 id → j ≠ id := by rintro j hj rfl; exact hj rfl
  refine {
    config := rfl, roundCounter := rfl, round := fun _ _ => rfl, state := fun _ _ => rfl
    sealed := fun _ _ => rfl, policyV2 := rfl
    roundV2 := fun j hj => by simp [writeRoundV2, hne hj]
    submissionV2 := fun j hj => by simp [writeRoundV2, hne hj]
    sealedV2 := fun j hj => by simp [writeRoundV2, hne hj]
    revealV3 := fun j hj => by simp [writeRoundV2, hne hj]
    progress := fun j old hj => ⟨_, _, _, _, hj⟩
    progressV2 := fun j old hj => ?_
    opening := fun j => ?_ }
  · by_cases hid : j = id
    · subst hid
      rw [hr, Option.some_inj] at hj
      subst hj
      exact ⟨status, bidders, winner, winningBid, by simp [writeRoundV2]⟩
    · exact ⟨old.status, old.bidders, old.winner, old.winningBid, by
        simp [writeRoundV2, hid, hj]⟩
  · by_cases hid : j = id
    · subst hid
      simpa [writeRoundV2] using hreveal
    · simp [writeRoundV2, hid]

/-! ## Creation -/

/-- The assets and the amount a settlement names. -/
def SettlementConfig.Valid (settlement : SettlementConfig) : Prop :=
  match settlement.mode with
  | .Auction => settlement.paymentAsset.isSome = true ∧ settlement.lotAsset.isSome = true ∧
      0 < settlement.lotAmount
  | .ReceiptOnly => settlement.paymentAsset = none ∧ settlement.lotAsset = none ∧
      settlement.lotAmount = 0

theorem yields_checkSettlement (settlement : SettlementConfig) (f f' : Frame) (u : Unit) :
    Yields (checkSettlement settlement) env f u f' ↔ settlement.Valid ∧ f' = f := by
  unfold checkSettlement SettlementConfig.Valid
  cases settlement.mode with
  | Auction => simp [I128.le_def, I128.lt_def, Option.isSome_iff_ne_none]
  | ReceiptOnly => simp

theorem hasDuplicate_eq_false (l : List Address) : hasDuplicate l = false ↔ l.Nodup := by
  induction l with
  | nil => simp [hasDuplicate]
  | cons a l ih =>
    rw [hasDuplicate, Bool.or_eq_false_iff, ih, List.nodup_cons]
    simp only [List.any_eq_false, decide_eq_true_eq, and_congr_left_iff]
    intro _
    exact ⟨fun h hmem => h a hmem rfl, fun h x hx heq => h (heq ▸ hx)⟩

/-- The fixed escrow suits the mode and the allowlist fits without repetition. -/
def RoundPolicyV2.Valid (mode : RoundMode) (maxParticipants : UInt32) (policy : RoundPolicyV2) :
    Prop :=
  (match mode with
    | .Auction => 0 < policy.fixedEscrow
    | .ReceiptOnly => policy.fixedEscrow = 0) ∧
  policy.eligibleParticipants.length ≤ maxParticipants.toNat ∧ policy.eligibleParticipants.Nodup

theorem yields_checkPolicy (mode : RoundMode) (maxParticipants : UInt32)
    (policy : Option RoundPolicyV2) (f f' : Frame) (u : Unit) :
    Yields (checkPolicy mode maxParticipants policy) env f u f' ↔
      (∀ p, policy = some p → p.Valid mode maxParticipants) ∧ f' = f := by
  cases policy with
  | none => simp [checkPolicy]
  | some p =>
    cases mode <;>
      simp [checkPolicy, checkFixedEscrow, RoundPolicyV2.Valid, hasDuplicate_eq_false, I128.le_def,
        I128.lt_def, and_assoc]

/-- The store a structured creation leaves. -/
def Store.addRoundV2 (s : Store) (id : UInt64) (round : RoundV2) (policy : Option RoundPolicyV2) :
    Store :=
  { s with
    roundCounter := some id
    roundV2 := Function.update s.roundV2 id (some round)
    policyV2 := Function.update s.policyV2 id (policy <|> s.policyV2 id) }

/-- The checks of a structured creation. -/
structure RoundArgsV2.Accepted (args : RoundArgsV2) (settlement : SettlementConfig)
    (policy : Option RoundPolicyV2) (config : GlobalConfig) (env : Env) : Prop where
  auth : env.auths args.operator = true
  revealRound : args.revealRound ≠ 0
  someParticipant : args.maxParticipants ≠ 0
  maxParticipants : args.maxParticipants ≤ maxV2Participants
  auditorPubkey : args.auditorPubkey.length ≤ maxAuditorPubkey
  beforeDrand : args.commitDeadline < timeOfRound config args.revealRound
  afterDrand : timeOfRound config args.revealRound < args.revealDeadline
  opens : env.timestamp < args.commitDeadline
  duration : saturatingSub args.revealDeadline env.timestamp ≤ maxRoundDurationSecs
  settles : settlement.Valid
  admits : ∀ p, policy = some p → p.Valid settlement.mode args.maxParticipants

/-- The lot the operator hands over. -/
def RoundArgsV2.lot (args : RoundArgsV2) (settlement : SettlementConfig) (contract : Address) :
    List Transfer :=
  match settlement.lotAsset with
  | some asset => [⟨asset, args.operator, contract, settlement.lotAmount.toInt⟩]
  | none => []

theorem yields_takeLot {operator : Address} (hauth : env.auths operator = true)
    (lotAsset : Option Address) (lotAmount : I128) (f f' : Frame) (u : Unit) :
    Yields (takeLot operator lotAsset lotAmount) env f u f' ↔
      ∃ c, transferAll? env.accepts f.balances (match lotAsset with
          | some asset => [⟨asset, operator, env.currentContract, lotAmount.toInt⟩]
          | none => []) = some c ∧
        f' = f.paid c (match lotAsset with
          | some asset => [⟨asset, operator, env.currentContract, lotAmount.toInt⟩]
          | none => []) := by
  cases lotAsset <;> simp [takeLot, yields_transfer, hauth]

theorem yields_createRoundV2Impl (hc : w.store.config = some config) (args : RoundArgsV2)
    (settlement : SettlementConfig) (policy : Option RoundPolicyV2) (f' : Frame) :
    Yields (createRoundV2Impl args settlement policy) env w.frame id f' ↔
      args.Accepted settlement policy config env ∧ id.toNat = w.store.lastId + 1 ∧
      ∃ c, transferAll? env.accepts w.balances (args.lot settlement env.currentContract) = some c ∧
        f' = (w.frame.withStore (w.store.addRoundV2 id (args.newRound settlement) policy)).paid c
          (args.lot settlement env.currentContract) := by
  have hpolicy : ∀ g : Frame, g.store = { w.store with roundCounter := some id }.setRoundV2 id
      (args.newRound settlement) → ∀ f', Yields (storePolicy id policy) env g ⟨⟩ f' ↔
        f' = g.withStore (w.store.addRoundV2 id (args.newRound settlement) policy) := by
    intro g hg f'
    cases policy with
    | none =>
      have hstore : w.store.addRoundV2 id (args.newRound settlement) none = g.store := by
        rw [hg]
        simp [Store.addRoundV2, Store.setRoundV2]
      simp [storePolicy, hstore]
    | some p =>
      have hstore : w.store.addRoundV2 id (args.newRound settlement) (some p) =
          g.store.setRoundPolicyV2 id p := by
        rw [hg]
        simp [Store.addRoundV2, Store.setRoundV2, Store.setRoundPolicyV2]
      simp [storePolicy, hstore]
  by_cases hauth : env.auths args.operator = true
  · simp [createRoundV2Impl, hc, hauth, yields_checkSettlement, yields_checkPolicy,
      yields_takeLot hauth, Unique.exists_iff]
    constructor
    · rintro ⟨hround, ⟨hsome, hmax⟩, hpub, ⟨hbefore, hafter⟩, hopens, hlong, hset, hpol, c, hpaid,
        hid, hlast⟩
      have hlast := (hpolicy _ (by simp [hc]) f').mp hlast
      exact ⟨⟨hauth, hround, hsome, hmax, hpub, hbefore, hafter, hopens, hlong, hset, hpol⟩, hid, c,
        hpaid, by rw [hlast]; rfl⟩
    · rintro ⟨hacc, hid, c, hpaid, rfl⟩
      refine ⟨hacc.revealRound, ⟨hacc.someParticipant, hacc.maxParticipants⟩, hacc.auditorPubkey,
        ⟨hacc.beforeDrand, hacc.afterDrand⟩, hacc.opens, hacc.duration, hacc.settles, hacc.admits,
        c, hpaid, hid, ?_⟩
      exact (hpolicy _ (by simp [hc]) _).mpr rfl
  · constructor
    · intro h
      simp [createRoundV2Impl, hauth] at h
    · rintro ⟨hacc, -⟩
      exact absurd hacc.auth hauth

/-- A structured creation, up to the opening policy. -/
theorem creates_addRoundV2 (hw : w.Sound env.toHost config now) {args : RoundArgsV2}
    {settlement : SettlementConfig} {policy : Option RoundPolicyV2} {c : Balances} {f' : Frame}
    (hself : env.auths env.currentContract = false)
    (hacc : args.Accepted settlement policy config env) (hid : id.toNat = w.store.lastId + 1)
    (hpaid : transferAll? env.accepts w.balances (args.lot settlement env.currentContract) = some c)
    {version : UInt32} (hversion : version = coreV2Version ∨ version = revealPolicyVersion)
    (reveal : Option RevealStateV3)
    (hopening : version = revealPolicyVersion → reveal.isSome = true)
    (hf : f' = (w.frame.withStore { w.store.addRoundV2 id
        { args.newRound settlement with protocolVersion := version } policy with
      revealV3 := Function.update w.store.revealV3 id reveal }).paid c
        (args.lot settlement env.currentContract)) :
    w.Creates env config (.v2 id) f' := by
  subst hf
  have htime := exactTimeOfRound_between hacc.revealRound hacc.beforeDrand hacc.afterDrand
  have hempty := hw.unused id (by omega)
  have hne : ∀ {j : UInt64}, RoundKey.v2 j ≠ .v2 id → j ≠ id := by rintro j hj rfl; exact hj rfl
  set round : RoundV2 := { args.newRound settlement with protocolVersion := version } with hround
  have hconsistent : round.Consistent := ⟨hacc.settles, hversion⟩
  refine ⟨⟨round.view (w.store.submissionV2 id), ?_, ?_, ?_⟩, ?_, hpaid⟩
  · show World.view ⟨{ w.store.addRoundV2 id round policy with
        revealV3 := Function.update w.store.revealV3 id reveal }, c⟩ (.v2 id) = _
    simp [World.view, Store.addRoundV2]
  · exact {
      status := rfl
      bidders := rfl
      entry := fun b => by simp [RoundV2.view, hempty.submissionV2 b]
      winner := rfl
      winningBid := rfl
      operator := by
        show args.operator ≠ env.currentContract
        rintro heq
        have hauth := hacc.auth
        rw [heq, hself] at hauth
        cases hauth
      lot := by
        intro asset amount hlot
        obtain ⟨lot, hl, heq⟩ := Option.map_eq_some_iff.mp hlot
        obtain ⟨-, rfl⟩ := Prod.mk.inj heq
        cases hm : round.mode with
        | Auction =>
          obtain ⟨-, -, -, -, hpos⟩ := hconsistent.auction hm
          exact hpos
        | ReceiptOnly =>
          rw [(hconsistent.receiptOnly hm).2] at hl
          cases hl
      auction := by
        intro hp
        have hp : round.paymentAsset = none := hp
        cases hm : round.mode with
        | Auction =>
          obtain ⟨payment, -, hpay, -⟩ := hconsistent.auction hm
          rw [hp] at hpay
          cases hpay
        | ReceiptOnly =>
          show round.lotAsset.map _ = none
          rw [(hconsistent.receiptOnly hm).2]
          rfl
      opens := UInt64.lt_iff_toNat_lt.mp hacc.opens
      scheduled := fun h => hacc.revealRound (UInt64.toNat_inj.mp h)
      beforeDrand := htime.1
      afterDrand := htime.2 }
  · show args.lot settlement env.currentContract = _
    unfold RoundArgsV2.lot SealedRound.lotFrom
    have hlot : (round.view (w.store.submissionV2 id)).terms.lot =
        settlement.lotAsset.map fun asset => (asset, settlement.lotAmount.toInt) := rfl
    rw [hlot]
    cases settlement.lotAsset <;> rfl
  · exact {
      next := hid
      config := rfl
      roundCounter := rfl
      round := fun _ _ => rfl
      state := rfl
      sealed := rfl
      roundV2 := fun j hj => by simp [Store.addRoundV2, hne hj]
      submissionV2 := rfl
      sealedV2 := rfl
      policyV2 := fun j hj => by simp [Store.addRoundV2, hne hj]
      revealV3 := fun j hj => by simp [hne hj]
      consistent := by
        intro j old hj hold
        obtain rfl : j = id := by simpa using hj
        have hold : Function.update w.store.roundV2 j (some round) j = some old := hold
        rw [Function.update_self, Option.some_inj] at hold
        rwa [← hold]
      opening := by
        intro j old hj hold hthird
        obtain rfl : j = id := by simpa using hj
        have hold : Function.update w.store.roundV2 j (some round) j = some old := hold
        rw [Function.update_self, Option.some_inj] at hold
        subst hold
        show (Function.update w.store.revealV3 j reveal j).isSome = true
        rw [Function.update_self]
        exact hopening hthird }

theorem creates_createRoundV2Impl (hw : w.Sound env.toHost config now) {args : RoundArgsV2}
    {settlement : SettlementConfig} {policy : Option RoundPolicyV2} {f' : Frame}
    (hself : env.auths env.currentContract = false)
    (h : Yields (createRoundV2Impl args settlement policy) env w.frame id f') :
    w.Creates env config (.v2 id) f' := by
  obtain ⟨hacc, hid, c, hpaid, rfl⟩ :=
    (yields_createRoundV2Impl hw.configured args settlement policy f').mp h
  refine creates_addRoundV2 hw hself hacc hid hpaid (Or.inl rfl) (w.store.revealV3 id)
    (fun h => absurd h (by decide)) ?_
  rw [Function.update_eq_self]
  rfl

/-- The checks of the opening policy of version 3. -/
def RevealPolicy.Valid (privacyAt revealDeadline : UInt64) : RevealPolicy → Prop
  | .Timed => True
  | .OwnerTriggered fallbackAt =>
      privacyAt < fallbackAt ∧ minRevealWindow ≤ (checkedSub revealDeadline fallbackAt).getD 0

theorem yields_checkRevealPolicy (privacyAt revealDeadline : UInt64) (policy : RevealPolicy)
    (f f' : Frame) (u : Unit) :
    Yields (checkRevealPolicy privacyAt revealDeadline policy) env f u f' ↔
      policy.Valid privacyAt revealDeadline ∧ f' = f := by
  cases policy <;> simp [checkRevealPolicy, RevealPolicy.Valid]

theorem yields_createRoundV3 (hc : w.store.config = some config) (args : RoundArgsV2)
    (policy : RoundPolicyV3) (f' : Frame) :
    Yields (createRoundV3 args policy) env w.frame id f' ↔
      policy.reveal.Valid (timeOfRound config args.revealRound) args.revealDeadline ∧
      args.Accepted policy.partner.settlement (some policy.partner) config env ∧
      id.toNat = w.store.lastId + 1 ∧
      ∃ c, transferAll? env.accepts w.balances
          (args.lot policy.partner.settlement env.currentContract) = some c ∧
        f' = (w.frame.withStore { w.store.addRoundV2 id
            { args.newRound policy.partner.settlement with protocolVersion := revealPolicyVersion }
            (some policy.partner) with
          revealV3 := Function.update w.store.revealV3 id (some ⟨policy.reveal, none⟩) }).paid c
            (args.lot policy.partner.settlement env.currentContract) := by
  simp only [createRoundV3, yields_bind, yields_getConfig, yields_checkRevealPolicy,
    yields_getRoundV2, yields_setRoundV2, yields_setRevealStateV3,
    yields_pure]
  constructor
  · rintro ⟨_, _, ⟨hconfig, rfl⟩, _, _, ⟨hvalid, rfl⟩, j, g, hcreate, round, _, ⟨hround, rfl⟩,
      _, _, rfl, _, _, rfl, rfl, rfl⟩
    rw [World.frame_store, hc, Option.some_inj] at hconfig
    subst hconfig
    obtain ⟨hacc, hid, c, hpaid, rfl⟩ :=
      (yields_createRoundV2Impl hc args policy.partner.settlement (some policy.partner) _).mp
      hcreate
    have hround : Function.update w.store.roundV2 id (some (args.newRound
      policy.partner.settlement)) id = some round := hround
    rw [Function.update_self, Option.some_inj] at hround
    subst hround
    refine ⟨hvalid, hacc, hid, c, hpaid, ?_⟩
    simp [Store.addRoundV2, Store.setRoundV2, Store.setRevealStateV3]
  · rintro ⟨hvalid, hacc, hid, c, hpaid, rfl⟩
    refine ⟨config, _, ⟨hc, rfl⟩, ⟨⟩, _, ⟨hvalid, rfl⟩, id, _,
      (yields_createRoundV2Impl hc args policy.partner.settlement (some policy.partner) _).mpr
        ⟨hacc, hid, c, hpaid, rfl⟩,
      args.newRound policy.partner.settlement, _, ⟨?_, rfl⟩, ⟨⟩, _, rfl, ⟨⟩, _, rfl, rfl, ?_⟩
    · exact Function.update_self ..
    · simp [Store.addRoundV2, Store.setRoundV2, Store.setRevealStateV3]

theorem creates_createRoundV3 (hw : w.Sound env.toHost config now) {args : RoundArgsV2}
    {policy : RoundPolicyV3} {f' : Frame} (hself : env.auths env.currentContract = false)
    (h : Yields (createRoundV3 args policy) env w.frame id f') :
    w.Creates env config (.v2 id) f' := by
  obtain ⟨-, hacc, hid, c, hpaid, hf⟩ := (yields_createRoundV3 hw.configured args policy f').mp h
  exact creates_addRoundV2 hw hself hacc hid hpaid (Or.inr rfl) _ (fun _ => rfl) hf

/-! ## Commit -/

theorem RoundV2.Consistent.yields_checkEscrow (h : round.Consistent)
    (submissions : Address → Option SubmissionStateV2) (escrow : I128) (f f' : Frame) (u : Unit) :
    Yields (checkEscrow round.mode escrow) env f u f' ↔
      (round.view submissions).terms.EscrowOk escrow.toInt ∧ f' = f := by
  unfold checkEscrow Terms.EscrowOk
  cases hm : round.mode with
  | Auction =>
    obtain ⟨payment, -, hp, -⟩ := h.auction hm
    simp [RoundV2.view, hp, I128.le_def]
  | ReceiptOnly => simp [RoundV2.view, (h.receiptOnly hm).1, ← I128.toInt_inj]

/-- The allowlist, when there is one, and the fixed escrow of an auction. -/
def RoundPolicyV2.Allows (mode : RoundMode) (bidder : Address) (escrow : I128)
    (policy : RoundPolicyV2) : Prop :=
  (policy.eligibleParticipants = [] ∨ bidder ∈ policy.eligibleParticipants) ∧
  (mode = .Auction → escrow = policy.fixedEscrow)

theorem yields_checkParticipant (mode : RoundMode) (b : Address) (escrow : I128)
    (policy : Option RoundPolicyV2) (f f' : Frame) (u : Unit) :
    Yields (checkParticipant mode b escrow policy) env f u f' ↔
      (∀ p, policy = some p → p.Allows mode b escrow) ∧ f' = f := by
  cases policy with
  | none => simp [checkParticipant]
  | some p =>
    cases hl : p.eligibleParticipants with
    | nil => simp [checkParticipant, RoundPolicyV2.Allows, hl]
    | cons allowed rest =>
      simp [checkParticipant, RoundPolicyV2.Allows, and_assoc, hl, or_iff_not_imp_left,
        eq_comm (a := b)]

theorem yields_refundPrevious (submissions : Address → Option SubmissionStateV2) (b : Address)
    {escrow : I128} (hescrow : (round.view submissions).terms.EscrowOk escrow.toInt)
    (f f' : Frame) (u : Unit) :
    Yields (refundPrevious round b escrow) env f u f' ↔
      ∃ c, transferAll? env.accepts f.balances
          ((round.view submissions).pay env.currentContract b escrow.toInt) = some c ∧
        f' = f.paid c ((round.view submissions).pay env.currentContract b escrow.toInt) := by
  unfold refundPrevious SealedRound.pay
  unfold Terms.EscrowOk at hescrow
  cases hp : round.paymentAsset with
  | none =>
    simp only [RoundV2.view, hp] at hescrow
    simp [RoundV2.view, hp, I128.lt_def, hescrow]
  | some asset =>
    simp only [RoundV2.view, hp] at hescrow
    simp [RoundV2.view, hp, I128.lt_def, hescrow, yields_transfer]

theorem yields_lockEscrow (submissions : Address → Option SubmissionStateV2) {b : Address}
    (hauth : env.auths b = true) {escrow : I128}
    (hescrow : (round.view submissions).terms.EscrowOk escrow.toInt) (f f' : Frame) (u : Unit) :
    Yields (lockEscrow round b escrow) env f u f' ↔
      ∃ c, transferAll? env.accepts f.balances
          ((round.view submissions).lock env.currentContract b escrow.toInt) = some c ∧
        f' = f.paid c ((round.view submissions).lock env.currentContract b escrow.toInt) := by
  unfold lockEscrow SealedRound.lock
  unfold Terms.EscrowOk at hescrow
  cases hp : round.paymentAsset with
  | none =>
    simp only [RoundV2.view, hp] at hescrow
    simp [RoundV2.view, hp, I128.lt_def, hescrow]
  | some asset =>
    simp only [RoundV2.view, hp] at hescrow
    simp [RoundV2.view, hp, I128.lt_def, hescrow, yields_transfer, hauth]

theorem yields_enterOrRefundV2 (hw : w.Sound env.toHost config now)
    (hr : w.store.roundV2 id = some round) (b : Address) (g : Frame) (l : List Address) :
    Yields (enterOrRefundV2 round id b) env w.frame l g ↔
      (b ∈ round.bidders ∨ round.bidders.length < round.maxParticipants.toNat) ∧
      l = (if b ∈ round.bidders then round.bidders else round.bidders ++ [b]) ∧
      ∃ c, transferAll? env.accepts w.balances ((round.view (w.store.submissionV2 id)).pay
          env.currentContract b ((round.view (w.store.submissionV2 id)).escrowOf b)) = some c ∧
        g = w.frame.paid c ((round.view (w.store.submissionV2 id)).pay
          env.currentContract b ((round.view (w.store.submissionV2 id)).escrowOf b)) := by
  obtain ⟨-, hsound⟩ := hw.roundV2_sound hr
  have hentered : b ∈ round.bidders ↔
      ((w.store.submissionV2 id b).map SubmissionStateV2.entry).isSome = true := hsound.entered b
  have hread : (submissionRecords id).read w.store b = w.store.submissionV2 id b := rfl
  cases hstate : w.store.submissionV2 id b with
  | none =>
    have hb : b ∉ round.bidders := by rw [hentered, hstate]; simp
    have hpay : (round.view (w.store.submissionV2 id)).pay env.currentContract b
        ((round.view (w.store.submissionV2 id)).escrowOf b) = [] := by
      have hzero : (round.view (w.store.submissionV2 id)).escrowOf b = 0 := by
        simp [SealedRound.escrowOf, RoundV2.view, hstate]
      rw [hzero, SealedRound.pay]
      split <;> rfl
    have hpaid : w.frame.paid w.balances [] = w.frame := Frame.paid_nil w.frame
    simp [enterOrRefundV2, tryGetSubmissionV2, hread, hstate, hb, hpay, hpaid, and_assoc,
      and_comm (a := g = w.frame)]
  | some prev =>
    have hb : b ∈ round.bidders := by rw [hentered, hstate]; rfl
    have hescrow : (round.view (w.store.submissionV2 id)).escrowOf b = prev.escrow.toInt := by
      simp [SealedRound.escrowOf, RoundV2.view, hstate, SubmissionStateV2.entry]
    have hok := (hsound.entries b prev.entry (by simp [RoundV2.view, hstate])).escrow
    simp [enterOrRefundV2, tryGetSubmissionV2, hread, hstate, hb, hescrow,
      yields_refundPrevious (w.store.submissionV2 id) b hok,
      Unique.exists_iff, and_comm (a := l = round.bidders)]

/-- The submissions after a commit of `b`. -/
def commitSubmissions (submissions : Address → Option SubmissionStateV2) (b : Address)
    (commitment : BytesN 32) (escrow : I128) : Address → Option SubmissionStateV2 :=
  Function.update submissions b (some
    { commitment, escrow, revealedEnvelope := none, revealedAmount := none, valid := false,
      settled := false })

theorem yields_commitV2 (hw : w.Sound env.toHost config now) (hr : w.store.roundV2 id = some round)
    (b : Address) (commitment : BytesN 32) (ciphertext : Bytes) (escrow : I128) (blob : Bytes)
    (f' : Frame) (u : Unit) :
    Yields (commitV2 id b commitment ciphertext escrow blob) env w.frame u f' ↔
      env.auths b = true ∧ round.status = .Open ∧ env.timestamp ≤ round.commitDeadline ∧
      (round.view (w.store.submissionV2 id)).terms.EscrowOk escrow.toInt ∧
      (∀ p, w.store.policyV2 id = some p → p.Allows round.mode b escrow) ∧
      (ciphertext.length ≤ maxCiphertext ∧ blob.length ≤ maxAuditorBlob) ∧
      (b ∈ round.bidders ∨ round.bidders.length < round.maxParticipants.toNat) ∧
      ∃ c, transferAll? env.accepts w.balances
          ((round.view (w.store.submissionV2 id)).pay env.currentContract b
              ((round.view (w.store.submissionV2 id)).escrowOf b) ++
            (round.view (w.store.submissionV2 id)).lock env.currentContract b escrow.toInt) =
          some c ∧
        f' = (w.frame.withStore (w.store.writeRoundV2 id
          { round with
            bidders := if b ∈ round.bidders then round.bidders else round.bidders ++ [b] }
          (commitSubmissions (w.store.submissionV2 id) b commitment escrow)
          (commitSeals env round.revealDeadline (w.store.sealedV2 id) b ⟨ciphertext, blob⟩)
          (w.store.revealV3 id))).paid c
          ((round.view (w.store.submissionV2 id)).pay env.currentContract b
              ((round.view (w.store.submissionV2 id)).escrowOf b) ++
            (round.view (w.store.submissionV2 id)).lock env.currentContract b escrow.toInt) := by
  have hcons := hw.consistent id round hr
  have hversion : ¬round.protocolVersion = coreV2Version →
      round.protocolVersion = revealPolicyVersion := hcons.version.resolve_left
  have hstore : ∀ bidders state, (((submissionRecords id).put w.store b state).setSealV2 env id b
      ⟨ciphertext, blob⟩ round.revealDeadline).setRoundV2 id { round with bidders } =
      w.store.writeRoundV2 id { round with bidders }
        (Function.update (w.store.submissionV2 id) b (some state))
        (commitSeals env round.revealDeadline (w.store.sealedV2 id) b ⟨ciphertext, blob⟩)
        (w.store.revealV3 id) := by
    intro bidders state
    simp [Records.put, submissionRecords, Store.setSealV2, Store.setRoundV2, Store.writeRoundV2,
      commitSeals]
  rw [transferAll?_append]
  by_cases hs : round.status = .Open
  · by_cases hauth : env.auths b = true
    · by_cases hescrow : (round.view (w.store.submissionV2 id)).terms.EscrowOk escrow.toInt
      · simp only [hs] at hstore
        simp only [Option.bind_eq_some_iff]
        simp [commitV2, hw.configured, hr, hs, hauth, hescrow,
          hcons.yields_checkEscrow (w.store.submissionV2 id), yields_checkParticipant,
          yields_enterOrRefundV2 hw hr,
          yields_lockEscrow (w.store.submissionV2 id) hauth hescrow,
          setSubmissionV2, Unique.exists_iff, hstore, commitSubmissions]
        constructor
        · rintro ⟨-, ht, hpol, hsize, c, ⟨hroom, hc⟩, d, hd, rfl⟩
          exact ⟨ht, hpol, hsize, hroom, d, ⟨c, hc, hd⟩, rfl⟩
        · rintro ⟨ht, hpol, hsize, hroom, d, ⟨c, hc, hd⟩, rfl⟩
          exact ⟨hversion, ht, hpol, hsize, c, ⟨hroom, hc⟩, d, hd, rfl⟩
      · simp [commitV2, hw.configured, hr, hs, hauth, hescrow,
          hcons.yields_checkEscrow (w.store.submissionV2 id)]
    · simp [commitV2, hauth]
  · simp [commitV2, hw.configured, hr, hs]

/-! ## Open and reveal -/

/-- The opening rules of version 3. -/
structure OpensAt (env : Env) (config : GlobalConfig) (round : RoundV2) (state : RevealStateV3) :
    Prop where
  afterDrand : timeOfRound config round.revealRound ≤ env.timestamp
  beforeDeadline : env.timestamp ≤ round.revealDeadline
  opener : ∀ fallbackAt, state.policy = .OwnerTriggered fallbackAt → env.timestamp < fallbackAt →
    env.auths round.operator = true

/-- The opening state after an opening. -/
def RoundV2.openedAt (round : RoundV2) (now : UInt64) (reveal : Option RevealStateV3) :
    Option RevealStateV3 :=
  if round.protocolVersion = revealPolicyVersion then
    reveal.map fun state => { state with openedAt := some now }
  else reveal

theorem yields_requireOpener (policy : RevealPolicy) (operator : Address) (f f' : Frame)
    (u : Unit) :
    Yields (requireOpener policy operator) env f u f' ↔
      (∀ fallbackAt, policy = .OwnerTriggered fallbackAt → env.timestamp < fallbackAt →
        env.auths operator = true) ∧ f' = f := by
  cases policy with
  | Timed => simp [requireOpener]
  | OwnerTriggered fallbackAt =>
    by_cases ht : env.timestamp < fallbackAt <;> simp [requireOpener, ht]

theorem yields_checkOpening (f f' : Frame) (o : Option RevealStateV3) :
    Yields (checkOpening config id round) env f o f' ↔
      (if round.protocolVersion = revealPolicyVersion then
        ∃ state, f.store.revealV3 id = some state ∧ OpensAt env config round state ∧ o = some state
      else o = none) ∧ f' = f := by
  by_cases hv : round.protocolVersion = revealPolicyVersion
  · simp [checkOpening, hv, yields_requireOpener]
    constructor
    · rintro ⟨state, hstate, hfrom, huntil, ⟨hopener, rfl⟩, rfl⟩
      exact ⟨⟨state, hstate, ⟨hfrom, huntil, hopener⟩, rfl⟩, rfl⟩
    · rintro ⟨⟨state, hstate, ⟨hfrom, huntil, hopener⟩, rfl⟩, rfl⟩
      exact ⟨state, hstate, hfrom, huntil, ⟨hopener, rfl⟩, rfl⟩
  · simp [checkOpening, hv, and_comm]

theorem yields_openRevealV2 (hw : w.Sound env.toHost config now)
    (hr : w.store.roundV2 id = some round) (signature : BytesN 96) (f' : Frame) (u : Unit) :
    Yields (openRevealV2 id signature) env w.frame u f' ↔
      round.status = .Open ∧ round.commitDeadline < env.timestamp ∧
      (round.protocolVersion = revealPolicyVersion →
        ∃ state, w.store.revealV3 id = some state ∧ OpensAt env config round state) ∧
      env.toHost.Verifies config round.revealRound signature ∧
      f' = w.frame.withStore (w.store.writeRoundV2 id { round with status := .Revealing }
        (w.store.submissionV2 id)
        (extendSeals env round.revealDeadline (w.store.sealedV2 id) round.bidders)
        (round.openedAt env.timestamp (w.store.revealV3 id))) := by
  by_cases hs : round.status = .Open
  · by_cases hv : round.protocolVersion = revealPolicyVersion
    · simp [openRevealV2, hw.configured, hr, hs, yields_checkOpening, hv, RoundV2.openedAt,
        storeOpening, Unique.exists_iff]
      intro _
      constructor
      · rintro ⟨state, ⟨hstate, hopens⟩, hver, rfl⟩
        refine ⟨⟨state, hstate, hopens⟩, hver, ?_⟩
        simp [hstate, Store.setRevealStateV3, Store.extendRoundSealsV2, Store.setRoundV2,
          Store.writeRoundV2]
      · rintro ⟨⟨state, hstate, hopens⟩, hver, rfl⟩
        refine ⟨state, ⟨hstate, hopens⟩, hver, ?_⟩
        simp [hstate, Store.setRevealStateV3, Store.extendRoundSealsV2, Store.setRoundV2,
          Store.writeRoundV2]
    · simp [openRevealV2, hw.configured, hr, hs, yields_checkOpening, hv, RoundV2.openedAt,
        storeOpening, Store.extendRoundSealsV2, Store.setRoundV2, Store.writeRoundV2]
  · simp [openRevealV2, hw.configured, hr, hs]

/-- The amount rule is the one of the round. -/
theorem RoundV2.Consistent.yields_checkReveal (h : round.Consistent)
    (submissions : Address → Option SubmissionStateV2) {escrow : I128}
    (hescrow : (round.view submissions).terms.EscrowOk escrow.toInt) (amount : Option I128)
    (f f' : Frame) (u : Unit) :
    Yields (checkReveal round.mode escrow amount) env f u f' ↔
      (round.view submissions).terms.Admits escrow.toInt (amount.map I128.toInt) ∧ f' = f := by
  unfold checkReveal Terms.Admits
  unfold Terms.EscrowOk at hescrow
  cases hm : round.mode with
  | Auction =>
    obtain ⟨payment, -, hp, -⟩ := h.auction hm
    simp [RoundV2.view, hp, I128.le_def, I128.lt_def]
    constructor
    · rintro ⟨v, hv, ⟨hpos, hf⟩, hle⟩
      exact ⟨⟨v, hv, hle, hpos⟩, hf⟩
    · rintro ⟨⟨v, hv, hle, hpos⟩, hf⟩
      exact ⟨v, hv, ⟨hpos, hf⟩, hle⟩
  | ReceiptOnly =>
    simp only [RoundV2.view, (h.receiptOnly hm).1] at hescrow
    simp [RoundV2.view, (h.receiptOnly hm).1, ← I128.toInt_inj, hescrow]

theorem yields_revealV2 (hw : w.Sound env.toHost config now) (hr : w.store.roundV2 id = some round)
    (b : Address) (envelope : Bytes) (f' : Frame) (u : Unit) :
    Yields (revealV2 id b envelope) env w.frame u f' ↔
      round.status = .Revealing ∧ env.timestamp ≤ round.revealDeadline ∧
      ∃ state payload, w.store.submissionV2 id b = some state ∧ state.revealedEnvelope = none ∧
        env.sha256 envelope = state.commitment ∧ decodeEnvelope envelope = .ok payload ∧
        (round.view (w.store.submissionV2 id)).terms.Admits state.escrow.toInt
          (payload.amount.map I128.toInt) ∧
        f' = w.frame.withStore (w.store.writeRoundV2 id round
          (Function.update (w.store.submissionV2 id) b (some { state with
            revealedAmount := payload.amount
            revealedEnvelope := some envelope
            valid := true })) (w.store.sealedV2 id) (w.store.revealV3 id)) := by
  obtain ⟨-, hsound⟩ := hw.roundV2_sound hr
  have hcons := hw.consistent id round hr
  have hread : (submissionRecords id).read w.store b = w.store.submissionV2 id b := rfl
  have hstore : ∀ state, (submissionRecords id).put w.store b state = w.store.writeRoundV2 id round
      (Function.update (w.store.submissionV2 id) b (some state)) (w.store.sealedV2 id)
      (w.store.revealV3 id) := by
    intro state
    simp [Records.put, submissionRecords, Store.writeRoundV2, ← hr]
  by_cases hs : round.status = .Revealing
  · cases hstate : w.store.submissionV2 id b with
    | none => simp [revealV2, hr, hs, getSubmissionV2, hread, hstate]
    | some state =>
      have hescrow := (hsound.entries b state.entry (by simp [RoundV2.view, hstate])).escrow
      cases hd : decodeEnvelope envelope with
      | error e => simp [revealV2, hs, getSubmissionV2, decoded, hd]
      | ok payload =>
        simp [revealV2, hr, hs, getSubmissionV2, setSubmissionV2, hread, hstate, decoded, hd,
          Unique.exists_iff, hstore,
          hcons.yields_checkReveal (w.store.submissionV2 id) hescrow]
  · simp [revealV2, hr, hs]

/-! ## Clear, settle and void -/

theorem yields_returnLot (env : Env) (round : RoundV2)
    (submissions : Address → Option SubmissionStateV2) (f f' : Frame) (u : Unit) :
    Yields (returnLot round) env f u f' ↔
      ∃ c, transferAll? env.accepts f.balances
          ((round.view submissions).lotTo env.currentContract round.operator) = some c ∧
        f' = f.paid c ((round.view submissions).lotTo env.currentContract round.operator) := by
  unfold returnLot SealedRound.lotTo
  cases hl : round.lotAsset <;> simp [RoundV2.view, hl, yields_transfer]

/-- The submissions of a voided round; only an auction marks them. -/
def RoundV2.voidedSubmissions (round : RoundV2)
    (submissions : Address → Option SubmissionStateV2) : Address → Option SubmissionStateV2 :=
  match round.paymentAsset with
  | some _ => fun b => (submissions b).map EscrowRecord.markSettled
  | none => submissions

theorem refundAllV2_none (round : RoundV2) (hp : round.paymentAsset = none) :
    refundAllV2 round id = returnLot round := by
  unfold refundAllV2
  rw [hp]

theorem refundAllV2_some (round : RoundV2) {asset : Address}
    (hp : round.paymentAsset = some asset) :
    refundAllV2 round id = (do
      refundBiddersV2 (submissionRecords id) asset round.bidders
      returnLot round) := by
  unfold refundAllV2
  rw [hp]

/-- A voided round refunds what it holds. -/
theorem yields_refundAllV2 (hw : w.Sound env.toHost config now)
    (hr : w.store.roundV2 id = some round) (hlive : (round.view (w.store.submissionV2 id)).Live)
    (f' : Frame) (u : Unit) :
    Yields (refundAllV2 { round with status := .Voided } id) env
        (w.frame.withStore (w.store.setRoundV2 id { round with status := .Voided })) u f' ↔
      ∃ c, transferAll? env.accepts w.balances
          ((round.view (w.store.submissionV2 id)).refunds env.currentContract) = some c ∧
        f' = (w.frame.withStore (w.store.writeRoundV2 id { round with status := .Voided }
          (round.voidedSubmissions (w.store.submissionV2 id)) (w.store.sealedV2 id)
          (w.store.revealV3 id))).paid c
          ((round.view (w.store.submissionV2 id)).refunds env.currentContract) := by
  obtain ⟨-, hsound⟩ := hw.roundV2_sound hr
  have hlot := yields_returnLot env { round with status := .Voided } (w.store.submissionV2 id)
  have hlotTo : (({ round with status := .Voided } : RoundV2).view
      (w.store.submissionV2 id)).lotTo env.currentContract round.operator =
        (round.view (w.store.submissionV2 id)).lotTo env.currentContract round.operator := rfl
  rcases Option.eq_none_or_eq_some round.paymentAsset with hp | ⟨asset, hp⟩
  · have hpays : (round.view (w.store.submissionV2 id)).refunds env.currentContract =
        (round.view (w.store.submissionV2 id)).lotTo env.currentContract round.operator := by
      have hnil : (round.bidders.flatMap fun b => (round.view (w.store.submissionV2 id)).pay
          env.currentContract b ((round.view (w.store.submissionV2 id)).escrowOf b)) = [] := by
        rw [List.flatMap_eq_nil_iff]
        intro b _
        simp [SealedRound.pay, RoundV2.view, hp]
      show (round.bidders.flatMap _) ++ _ = _
      rw [hnil]
      rfl
    have hsubs : round.voidedSubmissions (w.store.submissionV2 id) = w.store.submissionV2 id := by
      unfold RoundV2.voidedSubmissions
      rw [hp]
    rw [refundAllV2_none { round with status := .Voided } hp, hpays, hsubs, hlot, hlotTo,
      Store.setRoundV2_eq]
    rfl
  · have hhold : (submissionRecords id).Hold
        (w.store.setRoundV2 id { round with status := .Voided })
        (round.view (w.store.submissionV2 id)) := fun _ => rfl
    have hloop := hhold.yields_refundBiddersV2 (f := w.frame.withStore _) hsound hlive hp env
    have hstore : (submissionRecords id).closeAll
        (w.store.setRoundV2 id { round with status := .Voided }) =
        w.store.writeRoundV2 id { round with status := .Voided }
          (fun b => (w.store.submissionV2 id b).map EscrowRecord.markSettled) (w.store.sealedV2 id)
          (w.store.revealV3 id) := by
      simp [Records.closeAll, submissionRecords, Store.writeRoundV2, Store.setRoundV2]
    have hsubs : round.voidedSubmissions (w.store.submissionV2 id) =
        fun b => (w.store.submissionV2 id b).map EscrowRecord.markSettled := by
      unfold RoundV2.voidedSubmissions
      rw [hp]
    rw [refundAllV2_some { round with status := .Voided } hp, hsubs, ← hstore,
      SealedRound.refunds, transferAll?_append]
    simp only [yields_bind, hlot, hlotTo, Option.bind_eq_some_iff]
    constructor
    · rintro ⟨_, g, hg, d, hd, rfl⟩
      obtain ⟨c, hc, rfl⟩ := (hloop g ⟨⟩).mp hg
      exact ⟨d, ⟨c, hc, hd⟩, by rw [Frame.paid_paid]; rfl⟩
    · rintro ⟨d, ⟨c, hc, hd⟩, rfl⟩
      exact ⟨⟨⟩, _, (hloop _ ⟨⟩).mpr ⟨c, hc, rfl⟩, d, hd, by rw [Frame.paid_paid]; rfl⟩

theorem yields_voidV2 (hw : w.Sound env.toHost config now) (hr : w.store.roundV2 id = some round)
    (f' : Frame) (u : Unit) :
    Yields (voidV2 id) env w.frame u f' ↔
      round.status = .Open ∧ saturatingAdd round.revealDeadline voidGrace < env.timestamp ∧
      ∃ c, transferAll? env.accepts w.balances
          ((round.view (w.store.submissionV2 id)).refunds env.currentContract) = some c ∧
        f' = (w.frame.withStore (w.store.writeRoundV2 id { round with status := .Voided }
          (round.voidedSubmissions (w.store.submissionV2 id)) (w.store.sealedV2 id)
          (w.store.revealV3 id))).paid c
          ((round.view (w.store.submissionV2 id)).refunds env.currentContract) := by
  by_cases hs : round.status = .Open
  · have hlive : (round.view (w.store.submissionV2 id)).Live := Or.inl hs
    rw [← yields_refundAllV2 hw hr hlive f' u]
    simp [voidV2, hr, hs]
  · simp [voidV2, hr, hs]

/-- A time past the grace is past it also without the clamp. -/
theorem grace_lt {revealDeadline now : UInt64} :
    saturatingAdd revealDeadline voidGrace < now ↔ revealDeadline.toNat + 3600 < now.toNat := by
  have hgrace : voidGrace.toNat = 3600 := rfl
  have htop := now.toNat_lt
  rw [UInt64.lt_iff_toNat_lt, saturatingAdd_toNat, hgrace]
  omega

theorem yields_clearV2 (hw : w.Sound env.toHost config now) (hr : w.store.roundV2 id = some round)
    (f' : Frame) (o : Option Address) :
    Yields (clearV2 id) env w.frame o f' ↔
      round.status = .Revealing ∧ round.revealDeadline < env.timestamp ∧
      match round.mode with
      | .ReceiptOnly => o = none ∧
          f' = w.frame.withStore (w.store.writeRoundV2 id { round with status := .Settled }
            (fun b => (w.store.submissionV2 id b).map EscrowRecord.markSettled)
            (w.store.sealedV2 id) (w.store.revealV3 id))
      | .Auction =>
        match (round.view (w.store.submissionV2 id)).best with
        | none => o = none ∧ ∃ c, transferAll? env.accepts w.balances
              ((round.view (w.store.submissionV2 id)).refunds env.currentContract) = some c ∧
            f' = (w.frame.withStore (w.store.writeRoundV2 id { round with status := .Voided }
              (round.voidedSubmissions (w.store.submissionV2 id)) (w.store.sealedV2 id)
              (w.store.revealV3 id))).paid c
              ((round.view (w.store.submissionV2 id)).refunds env.currentContract)
        | some (winner, bid) => o = some winner ∧ ∃ winningBid : I128, winningBid.toInt = bid ∧
            f' = w.frame.withStore (w.store.writeRoundV2 id
              { round with winner := some winner, winningBid, status := .Cleared }
              (w.store.submissionV2 id) (w.store.sealedV2 id) (w.store.revealV3 id)) := by
  obtain ⟨-, hsound⟩ := hw.roundV2_sound hr
  have hhold := round.hold id w.store
  have hscan := hhold.clearScan
  by_cases hs : round.status = .Revealing
  · have hlive : (round.view (w.store.submissionV2 id)).Live := Or.inr (Or.inl hs)
    cases hm : round.mode with
    | ReceiptOnly =>
      have hready : ∀ b ∈ round.bidders, ∃ st, w.store.submissionV2 id b = some st := by
        intro b hb
        obtain ⟨st, hst, -⟩ := hhold.record hsound hb
        exact ⟨st, hst⟩
      have hloop := yields_finalizeSubmissions (f := w.frame) id hsound.nodup env hready
      have hstore : ((submissionRecords id).markAll EscrowRecord.markSettled round.bidders
          w.store).setRoundV2 id { round with status := .Settled } =
          w.store.writeRoundV2 id { round with status := .Settled }
            (fun b => (w.store.submissionV2 id b).map EscrowRecord.markSettled)
            (w.store.sealedV2 id) (w.store.revealV3 id) := by
        have hmark : (submissionRecords id).markAll EscrowRecord.markSettled round.bidders w.store =
          (submissionRecords id).closeAll w.store := hhold.markAll hsound
        rw [hmark]
        simp [Records.closeAll, submissionRecords, Store.writeRoundV2, Store.setRoundV2]
      have hloop : ∀ f' u, Yields (finalizeSubmissions id round.bidders) env w.frame u f' ↔
          f' = w.frame.withStore ((submissionRecords id).markAll EscrowRecord.markSettled
            round.bidders w.store) := hloop
      simp only [hm] at hstore
      simp [clearV2, hr, hs, hm, hloop, hstore, and_comm]
    | Auction =>
      cases hbest : (round.view (w.store.submissionV2 id)).best with
      | none =>
        rw [hbest] at hscan
        have hscan : clearScan round.clearingRule (fun b => (w.store.submissionV2 id b).bind
          SubmissionStateV2.validBid) round.bidders = ⟨none, 0, false⟩ := hscan
        have hrefund := yields_refundAllV2 hw hr hlive f' ⟨⟩
        simp only [hm] at hrefund
        simp only [← hrefund]
        simp [clearV2, hr, hs, hm, hscan, Unique.exists_iff, and_comm (a := o = none)]
      | some p =>
        obtain ⟨winner, bid⟩ := p
        rw [hbest] at hscan
        obtain ⟨best, hval, hscan⟩ := hscan
        have hscan : clearScan round.clearingRule (fun b => (w.store.submissionV2 id b).bind
          SubmissionStateV2.validBid) round.bidders = ⟨some winner, best, true⟩ := hscan
        have hbid : ∀ winningBid : I128, winningBid.toInt = bid ↔ winningBid = best := by
          intro winningBid
          rw [← hval, I128.toInt_inj]
        simp [clearV2, hr, hs, hm, hscan, Store.setRoundV2_eq, hbid, and_comm]
  · simp [clearV2, hr, hs]

theorem yields_settleV2 (hw : w.Sound env.toHost config now) (hr : w.store.roundV2 id = some round)
    (f' : Frame) (u : Unit) :
    Yields (settleV2 id) env w.frame u f' ↔
      round.mode = .Auction ∧ round.status = .Cleared ∧
      ∃ winner, round.winner = some winner ∧
      ∃ c, transferAll? env.accepts w.balances
          ((round.view (w.store.submissionV2 id)).payouts env.currentContract winner) = some c ∧
        f' = (w.frame.withStore (w.store.writeRoundV2 id { round with status := .Settled }
          (fun b => (w.store.submissionV2 id b).map EscrowRecord.markSettled)
          (w.store.sealedV2 id) (w.store.revealV3 id))).paid c
          ((round.view (w.store.submissionV2 id)).payouts env.currentContract winner) := by
  obtain ⟨-, hsound⟩ := hw.roundV2_sound hr
  by_cases hm : round.mode = .Auction
  · by_cases hs : round.status = .Cleared
    · obtain ⟨asset, lotAsset, hp, hl, -⟩ := (hw.consistent id round hr).auction hm
      have hloop := fun winner hwin => ((round.hold id w.store).yields_settleBidders
        (f := w.frame) hsound hs (w := winner) hp hwin (Eq.refl round.winningBid.toInt) env)
      have hlot : ∀ winner,
          (round.view (w.store.submissionV2 id)).lotTo env.currentContract winner =
          [⟨lotAsset, env.currentContract, winner, round.lotAmount.toInt⟩] := by
        intro winner
        simp [SealedRound.lotTo, RoundV2.view, hl]
      have hstore : ((submissionRecords id).closeAll w.store).setRoundV2 id
          { round with status := .Settled } =
          w.store.writeRoundV2 id { round with status := .Settled }
            (fun b => (w.store.submissionV2 id b).map EscrowRecord.markSettled)
            (w.store.sealedV2 id) (w.store.revealV3 id) := by
        simp [Records.closeAll, submissionRecords, Store.writeRoundV2, Store.setRoundV2]
      have hcall : Yields (settleV2 id) env w.frame u f' ↔ ∃ winner, round.winner = some winner ∧
          ∃ g, Yields (settleBidders (submissionRecords id) asset round.operator winner
              round.winningBid round.bidders) env w.frame ⟨⟩ g ∧
          ∃ d, transferAll? env.accepts g.balances
              [⟨lotAsset, env.currentContract, winner, round.lotAmount.toInt⟩] = some d ∧
            f' = (g.paid d [⟨lotAsset, env.currentContract, winner,
                round.lotAmount.toInt⟩]).withStore
              (g.store.setRoundV2 id { round with status := .Settled }) := by
        simp [settleV2, hw.configured, hr, hs, hm, hp, hl, Unique.exists_iff, yields_transfer]
      rw [hcall]
      constructor
      · rintro ⟨winner, hwin, g, hg, d, hd, rfl⟩
        obtain ⟨c, hc, rfl⟩ := (hloop winner hwin g ⟨⟩).mp hg
        refine ⟨hm, hs, winner, hwin, d, ?_, ?_⟩
        · rw [SealedRound.payouts, transferAll?_append, hlot, Option.bind_eq_some_iff]
          exact ⟨c, hc, hd⟩
        · rw [SealedRound.payouts, hlot, ← hstore, Frame.paid_paid]
          rfl
      · rintro ⟨-, -, winner, hwin, d, hd, rfl⟩
        rw [SealedRound.payouts, transferAll?_append, hlot, Option.bind_eq_some_iff] at hd
        obtain ⟨c, hc, hd⟩ := hd
        refine ⟨winner, hwin, _, (hloop winner hwin _ ⟨⟩).mpr ⟨c, hc, rfl⟩, d, hd, ?_⟩
        rw [SealedRound.payouts, hlot, ← hstore, Frame.paid_paid]
        rfl
    · simp [settleV2, hw.configured, hr, hs]
  · simp [settleV2, hw.configured, hr, hm]

/-! ## The step behind a successful call -/

/-- The frame after one round was written and `ts` were paid, as a step. -/
theorem World.Sound.advances_v2 (hw : w.Sound env.toHost config now)
    (hr : w.store.roundV2 id = some round) {action : Action} {status : Status}
    {bidders : List Address} {winner : Option Address} {winningBid : I128}
    {submissions : Address → Option SubmissionStateV2} {seals : Address → Option SealEntry}
    {reveal : Option RevealStateV3} {c : Balances} {ts : List Transfer}
    (hreveal : reveal.map RevealStateV3.policy = (w.store.revealV3 id).map RevealStateV3.policy)
    (hc : transferAll? env.accepts w.balances ts = some c)
    (hstep : Transition env.toHost env.timestamp.toNat (round.view (w.store.submissionV2 id)) action
      ts (({ round with status, bidders, winner, winningBid } : RoundV2).view submissions)) :
    w.Advances env (.v2 id) action ((w.frame.withStore (w.store.writeRoundV2 id
      { round with status, bidders, winner, winningBid } submissions seals reveal)).paid c ts) where
  step := ⟨_, _, (hw.roundV2_sound hr).1, Store.writeRoundV2_view .., hstep⟩
  evolves := Store.writeRoundV2_evolves hr status bidders winner winningBid submissions
    seals hreveal
  paid := hc

/-- The same without transfers. -/
theorem World.Sound.advances_v2_free (hw : w.Sound env.toHost config now)
    (hr : w.store.roundV2 id = some round) {action : Action} {status : Status}
    {bidders : List Address} {winner : Option Address} {winningBid : I128}
    {submissions : Address → Option SubmissionStateV2} {seals : Address → Option SealEntry}
    {reveal : Option RevealStateV3}
    (hreveal : reveal.map RevealStateV3.policy = (w.store.revealV3 id).map RevealStateV3.policy)
    (hstep : Transition env.toHost env.timestamp.toNat (round.view (w.store.submissionV2 id)) action
      [] (({ round with status, bidders, winner, winningBid } : RoundV2).view submissions)) :
    w.Advances env (.v2 id) action (w.frame.withStore (w.store.writeRoundV2 id
      { round with status, bidders, winner, winningBid } submissions seals reveal)) := by
  rw [← Frame.withStore_paid_nil]
  exact hw.advances_v2 hr hreveal rfl hstep

theorem RoundV2.view_close (round : RoundV2) (submissions : Address → Option SubmissionStateV2)
    (status : Status) :
    ({ round with status } : RoundV2).view
        (fun b => (submissions b).map EscrowRecord.markSettled) =
      (round.view submissions).close status := by
  unfold RoundV2.view SealedRound.close
  congr 1
  funext b
  simp only [Option.map_map]
  rfl

theorem RoundV2.view_voided (round : RoundV2)
    (submissions : Address → Option SubmissionStateV2) :
    ({ round with status := .Voided } : RoundV2).view (round.voidedSubmissions submissions) =
      (round.view submissions).voided := by
  rcases Option.eq_none_or_eq_some round.paymentAsset with hp | ⟨asset, hp⟩
  · have hsubs : round.voidedSubmissions submissions = submissions := by
      unfold RoundV2.voidedSubmissions
      rw [hp]
    have hvoided : (round.view submissions).voided =
        (round.view submissions).withStatus .Voided := by
      unfold SealedRound.voided
      rw [show (round.view submissions).terms.payment = none from hp]
    rw [hsubs, hvoided]
    rfl
  · have hsubs : round.voidedSubmissions submissions =
        fun b => (submissions b).map EscrowRecord.markSettled := by
      unfold RoundV2.voidedSubmissions
      rw [hp]
    have hvoided : (round.view submissions).voided = (round.view submissions).close .Voided := by
      unfold SealedRound.voided
      rw [show (round.view submissions).terms.payment = some asset from hp]
    rw [hsubs, hvoided, RoundV2.view_close]

theorem RoundV2.view_update (round : RoundV2)
    (submissions : Address → Option SubmissionStateV2) (b : Address) (state : SubmissionStateV2) :
    round.view (Function.update submissions b (some state)) =
      (round.view submissions).setEntry b state.entry := by
  unfold RoundV2.view SealedRound.setEntry
  congr 1
  funext c
  by_cases hc : c = b
  · subst hc
    simp
  · simp [Function.update_of_ne hc]

theorem RoundV2.openedAt_policy (round : RoundV2) (now : UInt64) (reveal : Option RevealStateV3) :
    (round.openedAt now reveal).map RevealStateV3.policy = reveal.map RevealStateV3.policy := by
  unfold RoundV2.openedAt
  split
  · rw [Option.map_map]
    rfl
  · rfl

section

variable (hw : w.Sound env.toHost config env.timestamp.toNat) {f' : Frame} {u : Unit}
include hw

theorem advances_commitV2 {b : Address} {commitment : BytesN 32} {ciphertext : Bytes}
    {escrow : I128} {blob : Bytes} (hself : env.auths env.currentContract = false)
    (h : Yields (commitV2 id b commitment ciphertext escrow blob) env w.frame u f') :
    w.Advances env (.v2 id) (.commit b commitment escrow.toInt) f' := by
  cases hr : w.store.roundV2 id with
  | none => simp [commitV2, hr] at h
  | some round =>
    obtain ⟨hauth, hs, ht, hescrow, -, -, hroom, c, hc, rfl⟩ := (yields_commitV2 hw hr ..).mp h
    have hb : b ≠ env.currentContract := by
      rintro rfl
      rw [hself] at hauth
      cases hauth
    refine hw.advances_v2 hr rfl hc ?_
    have hview : ({ round with
        bidders := if b ∈ round.bidders then round.bidders else round.bidders ++ [b] } :
          RoundV2).view (commitSubmissions (w.store.submissionV2 id) b commitment escrow) =
        (round.view (w.store.submissionV2 id)).enter b
          (Entry.fresh commitment escrow.toInt) := by
      rw [commitSubmissions, RoundV2.view_update]
      rfl
    rw [hview]
    exact Transition.commit b commitment escrow.toInt hs (UInt64.le_iff_toNat_le.mp ht) hb hroom
      hescrow

theorem advances_openRevealV2 {signature : BytesN 96}
    (h : Yields (openRevealV2 id signature) env w.frame u f') :
    w.Advances env (.v2 id) .opening f' := by
  cases hr : w.store.roundV2 id with
  | none => simp [openRevealV2, hr] at h
  | some round =>
    obtain ⟨hs, ht, -, -, rfl⟩ := (yields_openRevealV2 hw hr ..).mp h
    exact hw.advances_v2_free hr (round.openedAt_policy ..)
      (Transition.opening hs (UInt64.lt_iff_toNat_lt.mp ht))

theorem advances_revealV2 {b : Address} {envelope : Bytes}
    (h : Yields (revealV2 id b envelope) env w.frame u f') :
    w.Advances env (.v2 id) (.reveal b envelope) f' := by
  cases hr : w.store.roundV2 id with
  | none => simp [revealV2, hr] at h
  | some round =>
    obtain ⟨hs, ht, state, payload, hstate, hnone, hash, hd, hadmits, rfl⟩ :=
      (yields_revealV2 hw hr ..).mp h
    refine hw.advances_v2_free hr rfl ?_
    rw [RoundV2.view_update]
    exact Transition.reveal b state.entry envelope (payload.amount.map I128.toInt) hs
      (UInt64.le_iff_toNat_le.mp ht) (by simp [RoundV2.view, hstate]) hnone hash ⟨payload, hd, rfl⟩
      hadmits

theorem advances_voidV2 (h : Yields (voidV2 id) env w.frame u f') :
    w.Advances env (.v2 id) .void f' := by
  cases hr : w.store.roundV2 id with
  | none => simp [voidV2, hr] at h
  | some round =>
    obtain ⟨hs, ht, c, hc, rfl⟩ := (yields_voidV2 hw hr ..).mp h
    refine hw.advances_v2 hr rfl hc ?_
    rw [RoundV2.view_voided]
    exact Transition.void hs (grace_lt.mp ht)

theorem advances_clearV2 {o : Option Address} (h : Yields (clearV2 id) env w.frame o f') :
    w.Advances env (.v2 id) .clear f' := by
  cases hr : w.store.roundV2 id with
  | none => simp [clearV2, hr] at h
  | some round =>
    have hmode := (hw.consistent id round hr).mode
    obtain ⟨hs, ht, h⟩ := (yields_clearV2 hw hr ..).mp h
    have ht := UInt64.lt_iff_toNat_lt.mp ht
    split at h
    · next hm =>
      obtain ⟨-, rfl⟩ := h
      refine hw.advances_v2_free hr rfl ?_
      rw [RoundV2.view_close]
      exact Transition.finalize hs ht ((hw.consistent id round hr).receiptOnly hm).1
    · next hm =>
      split at h
      · next hbest =>
        obtain ⟨-, c, hc, rfl⟩ := h
        refine hw.advances_v2 hr rfl hc ?_
        rw [RoundV2.view_voided]
        exact Transition.clearVoid hs ht (hmode.mp hm) hbest
      · next winner bid hbest =>
        obtain ⟨-, winningBid, rfl, rfl⟩ := h
        exact hw.advances_v2_free hr rfl
          (Transition.clear winner winningBid.toInt hs ht (hmode.mp hm) hbest)

theorem advances_settleV2 (h : Yields (settleV2 id) env w.frame u f') :
    w.Advances env (.v2 id) .settle f' := by
  cases hr : w.store.roundV2 id with
  | none => simp [settleV2, hr] at h
  | some round =>
    have hmode := (hw.consistent id round hr).mode
    obtain ⟨hm, hs, winner, hwin, c, hc, rfl⟩ := (yields_settleV2 hw hr ..).mp h
    refine hw.advances_v2 hr rfl hc ?_
    rw [RoundV2.view_close]
    exact Transition.settle winner hs hwin (hmode.mp hm)

end

end

end SubRosa
