import SubRosa.Auction.Records

/-!
# Calls of the first generation

For each entry point on a round: when it succeeds on a sound world and what it
leaves, in both directions. The step of the sealed round behind it follows.
-/

namespace SubRosa

open MachineInt Invocation TokenLedger BigEndian

section

variable {env : Env} {config : GlobalConfig} {now : Nat} {w : World} {id : UInt64} {round : Round}

/-- The records of a stored round. -/
theorem Round.hold (config : GlobalConfig) (round : Round) (id : UInt64) (s : Store) :
    (stateRecords id).Hold s (round.view config (s.state id)) := fun _ => rfl

theorem World.Sound.round_sound (h : w.Sound env.toHost config now)
    (hr : w.store.round id = some round) :
    w.view (.v1 id) = some (round.view config (w.store.state id)) ∧
      (round.view config (w.store.state id)).Sound env.toHost config now := by
  have hview : w.view (.v1 id) = some (round.view config (w.store.state id)) := h.view_round hr
  exact ⟨hview, h.views _ _ hview⟩

/-! ## What is written -/

/-- The store after one round, its records and its seals were written. -/
def Store.writeRound (s : Store) (id : UInt64) (round : Round)
    (states : Address → Option BidState) (seals : Address → Option SealEntry) : Store :=
  { s with
    round := Function.update s.round id (some round)
    state := Function.update s.state id states
    sealed := Function.update s.sealed id seals }

theorem Store.writeRound_view {s : Store} (hc : s.config = some config) (round : Round)
    (states : Address → Option BidState) (seals : Address → Option SealEntry) (b : Balances) :
    World.view ⟨s.writeRound id round states seals, b⟩ (.v1 id) =
      some (round.view config states) := by
  simp [World.view, Store.writeRound, hc]

theorem Store.setRound_eq (s : Store) (id : UInt64) (round : Round) :
    s.setRound id round = s.writeRound id round (s.state id) (s.sealed id) := by
  simp [Store.setRound, Store.writeRound]

/-- Writing one round evolves it. -/
theorem Store.writeRound_evolves {s : Store} (hr : s.round id = some round) (status : Status)
    (bidders : List Address) (winner : Option Address) (winningBid : I128)
    (states : Address → Option BidState) (seals : Address → Option SealEntry) :
    s.Evolves (.v1 id)
      (s.writeRound id { round with status, bidders, winner, winningBid } states seals) := by
  have hne : ∀ {j : UInt64}, RoundKey.v1 j ≠ .v1 id → j ≠ id := by rintro j hj rfl; exact hj rfl
  refine {
    config := rfl, roundCounter := rfl, roundV2 := fun _ _ => rfl
    submissionV2 := fun _ _ => rfl, sealedV2 := fun _ _ => rfl, revealV3 := fun _ _ => rfl
    policyV2 := rfl, opening := fun _ => rfl
    round := fun j hj => by simp [writeRound, hne hj]
    state := fun j hj => by simp [writeRound, hne hj]
    sealed := fun j hj => by simp [writeRound, hne hj]
    progress := fun j old hj => ?_
    progressV2 := fun j old hj => ⟨_, _, _, _, hj⟩ }
  by_cases hid : j = id
  · subst hid
    rw [hr, Option.some_inj] at hj
    subst hj
    exact ⟨status, bidders, winner, winningBid, by simp [writeRound]⟩
  · exact ⟨old.status, old.bidders, old.winner, old.winningBid, by
      simp [writeRound, hid, hj]⟩

/-! ## Creation -/

theorem yields_createRound (hc : w.store.config = some config) (args : RoundArgs) (f' : Frame) :
    Yields (createRound args) env w.frame id f' ↔
      env.auths args.operator = true ∧ args.revealRound ≠ 0 ∧
      args.auditorPubkey.length ≤ maxAuditorPubkey ∧
      args.commitDeadline < timeOfRound config args.revealRound ∧
      timeOfRound config args.revealRound < args.revealDeadline ∧
      env.timestamp < args.commitDeadline ∧ id.toNat = w.store.lastId + 1 ∧
      f' = w.frame.withStore
        ({ w.store with roundCounter := some id }.setRound id args.newRound) := by
  simp [createRound, hc, Store.lastId]

theorem creates_createRound (hw : w.Sound env.toHost config now) {args : RoundArgs} {f' : Frame}
    (hself : env.auths env.currentContract = false)
    (h : Yields (createRound args) env w.frame id f') : w.Creates env config (.v1 id) f' := by
  obtain ⟨hauth, hround, -, hcommit, hreveal, hnow, hid, rfl⟩ :=
    (yields_createRound hw.configured args f').mp h
  have htime := exactTimeOfRound_between hround hcommit hreveal
  have hview : World.view (w.frame.withStore
      ({ w.store with roundCounter := some id }.setRound id args.newRound)).toWorld (.v1 id) =
        some (args.newRound.view config (w.store.state id)) := by
    simp [World.view, Store.setRound, hw.configured]
  have hempty := hw.unused id (by omega)
  have hne : ∀ {j : UInt64}, RoundKey.v1 j ≠ .v1 id → j ≠ id := by rintro j hj rfl; exact hj rfl
  refine ⟨⟨_, hview, ?_, rfl⟩, ?_, rfl⟩
  · exact {
      status := rfl
      bidders := rfl
      entry := fun b => by simp [Round.view, hempty.state b]
      winner := rfl
      winningBid := rfl
      operator := by
        show args.operator ≠ env.currentContract
        rintro heq
        rw [heq, hself] at hauth
        cases hauth
      lot := fun _ _ hlot => by cases hlot
      auction := fun hp => by cases hp
      opens := UInt64.lt_iff_toNat_lt.mp hnow
      scheduled := fun h => hround (UInt64.toNat_inj.mp h)
      beforeDrand := htime.1
      afterDrand := htime.2 }
  · exact {
      next := hid
      config := rfl
      roundCounter := rfl
      round := fun j hj => by simp [Store.setRound, hne hj]
      state := rfl
      sealed := rfl
      roundV2 := fun _ _ => rfl
      submissionV2 := rfl
      sealedV2 := rfl
      policyV2 := fun _ _ => rfl
      revealV3 := fun _ _ => rfl
      consistent := fun _ _ hj _ => by cases hj
      opening := fun _ _ hj _ => by cases hj }

/-! ## When the calls succeed -/

/-- The bidder list after `b` entered. -/
theorem yields_enterOrRefund (hw : w.Sound env.toHost config now)
    (hr : w.store.round id = some round) (b : Address) (g : Frame) (l : List Address) :
    Yields (enterOrRefund round id b config.usdc) env w.frame l g ↔
      (b ∈ round.bidders ∨ round.bidders.length < maxBidders) ∧
      l = (if b ∈ round.bidders then round.bidders else round.bidders ++ [b]) ∧
      ∃ c, transferAll? env.accepts w.balances ((round.view config (w.store.state id)).pay
          env.currentContract b ((round.view config (w.store.state id)).escrowOf b)) = some c ∧
        g = w.frame.paid c ((round.view config (w.store.state id)).pay
          env.currentContract b ((round.view config (w.store.state id)).escrowOf b)) := by
  obtain ⟨-, hsound⟩ := hw.round_sound hr
  have hentered : b ∈ round.bidders ↔ ((w.store.state id b).map BidState.entry).isSome = true :=
    hsound.entered b
  have hread : (stateRecords id).read w.store b = w.store.state id b := rfl
  cases hstate : w.store.state id b with
  | none =>
    have hb : b ∉ round.bidders := by rw [hentered, hstate]; simp
    have hpay : (round.view config (w.store.state id)).pay env.currentContract b
        ((round.view config (w.store.state id)).escrowOf b) = [] := by
      simp [SealedRound.pay, SealedRound.escrowOf, Round.view, hstate]
    have hpaid : w.frame.paid w.balances [] = w.frame := Frame.paid_nil w.frame
    simp [enterOrRefund, tryGetState, hread, hstate, hb, hpay, hpaid, and_assoc,
      and_comm (a := g = w.frame)]
  | some prev =>
    have hb : b ∈ round.bidders := by rw [hentered, hstate]; rfl
    have hpay : (round.view config (w.store.state id)).pay env.currentContract b
        ((round.view config (w.store.state id)).escrowOf b) =
          payment env.currentContract config.usdc b prev.escrow := by
      simp [SealedRound.pay, SealedRound.escrowOf, Round.view, hstate, BidState.entry, payment,
        I128.lt_def]
    simp [enterOrRefund, tryGetState, hread, hstate, hb, hpay, yields_payPositive,
      Unique.exists_iff, and_comm (a := l = round.bidders)]

/-- The records after a commit of `b`. -/
def commitStates (states : Address → Option BidState) (b : Address) (commitment : BytesN 32)
    (escrow : I128) : Address → Option BidState :=
  Function.update states b (some
    { commitment, escrow, revealedValue := none, revealedNonce := none, valid := false,
      settled := false })

/-- The seals after `b` sealed a payload. -/
def commitSeals (env : Env) (revealDeadline : UInt64) (seals : Address → Option SealEntry)
    (b : Address) (payload : Seal) : Address → Option SealEntry :=
  Function.update seals b
    (some (extendSealTtl env (writeSeal env (seals b) payload) revealDeadline))

theorem yields_commit (hw : w.Sound env.toHost config now) (hr : w.store.round id = some round)
    (b : Address) (commitment : BytesN 32) (ciphertext : Bytes) (escrow : I128) (blob : Bytes)
    (f' : Frame) (u : Unit) :
    Yields (commit id b commitment ciphertext escrow blob) env w.frame u f' ↔
      env.auths b = true ∧ round.status = .Open ∧ env.timestamp ≤ round.commitDeadline ∧
      0 < escrow ∧ (ciphertext.length ≤ maxCiphertext ∧ blob.length ≤ maxAuditorBlob) ∧
      (b ∈ round.bidders ∨ round.bidders.length < maxBidders) ∧
      ∃ c, transferAll? env.accepts w.balances
          ((round.view config (w.store.state id)).pay env.currentContract b
              ((round.view config (w.store.state id)).escrowOf b) ++
            (round.view config (w.store.state id)).lock env.currentContract b escrow.toInt) =
          some c ∧
        f' = (w.frame.withStore (w.store.writeRound id
          { round with
            bidders := if b ∈ round.bidders then round.bidders else round.bidders ++ [b] }
          (commitStates (w.store.state id) b commitment escrow)
          (commitSeals env round.revealDeadline (w.store.sealed id) b ⟨ciphertext, blob⟩))).paid c
          ((round.view config (w.store.state id)).pay env.currentContract b
              ((round.view config (w.store.state id)).escrowOf b) ++
            (round.view config (w.store.state id)).lock env.currentContract b escrow.toInt) := by
  have hstore : ∀ bidders state, (((stateRecords id).put w.store b state).setSeal env id b
      ⟨ciphertext, blob⟩ round.revealDeadline).setRound id { round with bidders } =
      w.store.writeRound id { round with bidders }
      (Function.update (w.store.state id) b (some state))
        (commitSeals env round.revealDeadline (w.store.sealed id) b ⟨ciphertext, blob⟩) := by
    intro bidders state
    simp [Records.put, stateRecords, Store.setSeal, Store.setRound, Store.writeRound, commitSeals]
  have hlock : (round.view config (w.store.state id)).lock env.currentContract b escrow.toInt =
      [⟨config.usdc, b, env.currentContract, escrow.toInt⟩] := rfl
  rw [transferAll?_append, hlock]
  by_cases hs : round.status = .Open
  · by_cases hauth : env.auths b = true
    · simp only [hs] at hstore
      simp only [Option.bind_eq_some_iff, I128.lt_def, I128.toInt_zero]
      simp [commit, hw.configured, hr, hs, hauth, yields_enterOrRefund hw hr, yields_transfer,
        setState, Unique.exists_iff, hstore, commitStates, I128.le_def]
      intro _ _ _ _
      constructor
      · rintro ⟨c, ⟨hroom, hc⟩, d, hd, rfl⟩
        exact ⟨hroom, d, ⟨c, hc, hd⟩, rfl⟩
      · rintro ⟨hroom, d, ⟨c, hc, hd⟩, rfl⟩
        exact ⟨c, ⟨hroom, hc⟩, d, hd, rfl⟩
    · simp [commit, hauth]
  · simp [commit, hw.configured, hr, hs]

theorem yields_openReveal (hw : w.Sound env.toHost config now) (hr : w.store.round id = some round)
    (signature : BytesN 96) (f' : Frame) (u : Unit) :
    Yields (openReveal id signature) env w.frame u f' ↔
      round.status = .Open ∧ round.commitDeadline < env.timestamp ∧
      env.toHost.Verifies config round.revealRound signature ∧
      f' = w.frame.withStore (w.store.writeRound id { round with status := .Revealing }
        (w.store.state id)
        (extendSeals env round.revealDeadline (w.store.sealed id) round.bidders)) := by
  have hstore : (w.store.extendRoundSeals env id round.bidders round.revealDeadline).setRound id
      { round with status := .Revealing } = w.store.writeRound id
        { round with status := .Revealing } (w.store.state id)
        (extendSeals env round.revealDeadline (w.store.sealed id) round.bidders) := by
    simp [Store.extendRoundSeals, Store.setRound, Store.writeRound]
  by_cases hs : round.status = .Open <;> simp [openReveal, hw.configured, hr, hs, hstore]

theorem yields_reveal (hr : w.store.round id = some round) (b : Address) (value : I128)
    (nonce : BytesN 32) (f' : Frame) (u : Unit) :
    Yields (reveal id b value nonce) env w.frame u f' ↔
      round.status = .Revealing ∧ env.timestamp ≤ round.revealDeadline ∧
      ∃ state, w.store.state id b = some state ∧ state.revealedValue = none ∧
        env.sha256 (bidPreimage value nonce) = state.commitment ∧ value ≤ state.escrow ∧
        f' = w.frame.withStore (w.store.writeRound id round
          (Function.update (w.store.state id) b (some { state with
            revealedValue := some value
            revealedNonce := some nonce
            valid := decide (0 < value) })) (w.store.sealed id)) := by
  have hstore : ∀ state, (stateRecords id).put w.store b state = w.store.writeRound id round
      (Function.update (w.store.state id) b (some state)) (w.store.sealed id) := by
    intro state
    simp [Records.put, stateRecords, Store.writeRound, ← hr]
  have hread : (stateRecords id).read w.store = w.store.state id := rfl
  by_cases hs : round.status = .Revealing <;>
    simp [reveal, hr, hs, getState, setState, hstore, hread, I128.le_def, I128.lt_def]

/-- A voided round refunds what it holds. -/
theorem yields_refundAll (hw : w.Sound env.toHost config now) (hr : w.store.round id = some round)
    (hlive : (round.view config (w.store.state id)).Live) (f' : Frame) (u : Unit) :
    Yields (refundAll { round with status := .Voided } id) env
        (w.frame.withStore (w.store.setRound id { round with status := .Voided })) u f' ↔
      ∃ c, transferAll? env.accepts w.balances
          ((round.view config (w.store.state id)).refunds env.currentContract) = some c ∧
        f' = (w.frame.withStore (w.store.writeRound id { round with status := .Voided }
          (fun b => (w.store.state id b).map EscrowRecord.markSettled) (w.store.sealed id))).paid c
          ((round.view config (w.store.state id)).refunds env.currentContract) := by
  obtain ⟨-, hsound⟩ := hw.round_sound hr
  have hhold : (stateRecords id).Hold (w.store.setRound id { round with status := .Voided })
      (round.view config (w.store.state id)) := fun _ => rfl
  have hloop := hhold.yields_refundBidders (f := w.frame.withStore _) hsound hlive rfl env f' u
  have hstore : (stateRecords id).closeAll (w.store.setRound id { round with status := .Voided }) =
      w.store.writeRound id { round with status := .Voided }
        (fun b => (w.store.state id b).map EscrowRecord.markSettled) (w.store.sealed id) := by
    simp [Records.closeAll, stateRecords, Store.writeRound, Store.setRound]
  have hrefunds : (round.view config (w.store.state id)).refunds env.currentContract =
      round.bidders.flatMap fun b => (round.view config (w.store.state id)).pay
        env.currentContract b ((round.view config (w.store.state id)).escrowOf b) :=
    List.append_nil _
  have hconfig : (w.frame.withStore (w.store.setRound id
      { round with status := .Voided })).store.config = some config := hw.configured
  simp only [refundAll, yields_get_bind, hconfig]
  rw [hrefunds, ← hstore]
  exact hloop

theorem yields_void (hw : w.Sound env.toHost config now) (hr : w.store.round id = some round)
    (f' : Frame) (u : Unit) :
    Yields (void id) env w.frame u f' ↔
      round.status = .Open ∧ round.revealDeadline.toNat + 3600 < env.timestamp.toNat ∧
      ∃ c, transferAll? env.accepts w.balances
          ((round.view config (w.store.state id)).refunds env.currentContract) = some c ∧
        f' = (w.frame.withStore (w.store.writeRound id { round with status := .Voided }
          (fun b => (w.store.state id b).map EscrowRecord.markSettled) (w.store.sealed id))).paid c
          ((round.view config (w.store.state id)).refunds env.currentContract) := by
  have hgrace : voidGrace.toNat = 3600 := rfl
  have hadd : (∃ graceEnd, checkedAdd round.revealDeadline voidGrace = some graceEnd ∧
      graceEnd < env.timestamp) ↔ round.revealDeadline.toNat + 3600 < env.timestamp.toNat := by
    have htop := env.timestamp.toNat_lt
    constructor
    · rintro ⟨graceEnd, h, hlt⟩
      have hsum := checkedAdd_eq_some.mp h
      have := UInt64.lt_iff_toNat_lt.mp hlt
      omega
    · intro h
      refine ⟨UInt64.ofNat (round.revealDeadline.toNat + 3600), checkedAdd_eq_some.mpr ?_,
        UInt64.lt_iff_toNat_lt.mpr ?_⟩ <;>
        rw [UInt64.toNat_ofNat_of_lt' (by show _ < 2 ^ 64; omega)] <;> omega
  by_cases hs : round.status = .Open
  · have hlive : (round.view config (w.store.state id)).Live := Or.inl hs
    rw [← yields_refundAll hw hr hlive f' u, ← hadd]
    simp [void, hr, hs, ← exists_and_right, and_assoc]
  · simp [void, hr, hs]

/-- When its refunds go through, voiding traps on the addition of the grace only. -/
theorem traps_void (hw : w.Sound env.toHost config now) (hr : w.store.round id = some round)
    (hpays : round.status = .Open → round.revealDeadline.toNat + 3600 < env.timestamp.toNat →
      ∃ c, transferAll? env.accepts w.balances
        ((round.view config (w.store.state id)).refunds env.currentContract) = some c) :
    Traps (void id) env w.frame ↔
      round.status = .Open ∧ 2 ^ 64 ≤ round.revealDeadline.toNat + 3600 := by
  have hgrace : voidGrace.toNat = 3600 := rfl
  have hnone := checkedAdd_eq_none (a := round.revealDeadline) (b := voidGrace)
  by_cases hs : round.status = .Open
  · have hlive : (round.view config (w.store.state id)).Live := Or.inl hs
    have hrefund : ∀ graceEnd, checkedAdd round.revealDeadline voidGrace = some graceEnd →
        graceEnd < env.timestamp →
        ¬ Traps (refundAll { round with status := .Voided } id) env
          (w.frame.withStore (w.store.setRound id { round with status := .Voided })) := by
      intro graceEnd hadd hlt
      have hsum := checkedAdd_eq_some.mp hadd
      have hlt := UInt64.lt_iff_toNat_lt.mp hlt
      obtain ⟨c, hc⟩ := hpays hs (by omega)
      exact ((yields_refundAll hw hr hlive _ ⟨⟩).mpr ⟨c, hc, rfl⟩).not_traps
    rw [← hgrace, ← hnone]
    simp [void, hr, hs, getRound, setRound]
    intro graceEnd hadd hlt htrap
    exact absurd htrap (hrefund graceEnd hadd hlt)
  · simp [void, hr, hs, getRound]

theorem yields_clear (hw : w.Sound env.toHost config now) (hr : w.store.round id = some round)
    (f' : Frame) (o : Option Address) :
    Yields (clear id) env w.frame o f' ↔
      round.status = .Revealing ∧ round.revealDeadline < env.timestamp ∧
      match (round.view config (w.store.state id)).best with
      | none => o = none ∧ ∃ c, transferAll? env.accepts w.balances
            ((round.view config (w.store.state id)).refunds env.currentContract) = some c ∧
          f' = (w.frame.withStore (w.store.writeRound id { round with status := .Voided }
            (fun b => (w.store.state id b).map EscrowRecord.markSettled)
            (w.store.sealed id))).paid c
            ((round.view config (w.store.state id)).refunds env.currentContract)
      | some (winner, bid) => o = some winner ∧ ∃ winningBid : I128, winningBid.toInt = bid ∧
          f' = w.frame.withStore (w.store.writeRound id
            { round with winner := some winner, winningBid, status := .Cleared }
            (w.store.state id) (w.store.sealed id)) := by
  have hscan := (round.hold config id w.store).clearScan
  by_cases hs : round.status = .Revealing
  · have hlive : (round.view config (w.store.state id)).Live := Or.inr (Or.inl hs)
    cases hbest : (round.view config (w.store.state id)).best with
    | none =>
      rw [hbest] at hscan
      have hscan : clearScan round.clearingRule (fun b => (w.store.state id b).bind
        BidState.validBid) round.bidders = ⟨none, 0, false⟩ := hscan
      simp only [← yields_refundAll hw hr hlive f' ⟨⟩]
      simp [clear, hr, hs, hscan, Unique.exists_iff, and_comm (a := o = none)]
    | some p =>
      obtain ⟨winner, bid⟩ := p
      rw [hbest] at hscan
      obtain ⟨best, hval, hscan⟩ := hscan
      have hscan : clearScan round.clearingRule (fun b => (w.store.state id b).bind
        BidState.validBid) round.bidders = ⟨some winner, best, true⟩ := hscan
      have hbid : ∀ winningBid : I128, winningBid.toInt = bid ↔ winningBid = best := by
        intro winningBid
        rw [← hval, I128.toInt_inj]
      simp [clear, hr, hs, hscan, Store.setRound_eq, hbid, and_comm]
  · simp [clear, hr, hs]

theorem yields_settle (hw : w.Sound env.toHost config now) (hr : w.store.round id = some round)
    (f' : Frame) (u : Unit) :
    Yields (settle id) env w.frame u f' ↔
      round.status = .Cleared ∧ ∃ winner, round.winner = some winner ∧
      ∃ c, transferAll? env.accepts w.balances
          ((round.view config (w.store.state id)).payouts env.currentContract winner) = some c ∧
        f' = (w.frame.withStore (w.store.writeRound id { round with status := .Settled }
          (fun b => (w.store.state id b).map EscrowRecord.markSettled) (w.store.sealed id))).paid c
          ((round.view config (w.store.state id)).payouts env.currentContract winner) := by
  obtain ⟨-, hsound⟩ := hw.round_sound hr
  by_cases hs : round.status = .Cleared
  · have hloop := fun winner hwin => ((round.hold config id w.store).yields_settleBidders
      (f := w.frame) hsound hs (w := winner) rfl hwin (Eq.refl round.winningBid.toInt) env)
    have hpayouts : ∀ winner, (round.view config (w.store.state id)).payouts env.currentContract
        winner = round.bidders.flatMap fun b =>
          (round.view config (w.store.state id)).payoutOf env.currentContract winner b :=
      fun winner => List.append_nil _
    have hstore : ((stateRecords id).closeAll w.store).setRound id
        { round with status := .Settled } =
        w.store.writeRound id { round with status := .Settled }
          (fun b => (w.store.state id b).map EscrowRecord.markSettled) (w.store.sealed id) := by
      simp [Records.closeAll, stateRecords, Store.writeRound, Store.setRound]
    have hcall : Yields (settle id) env w.frame u f' ↔ ∃ winner, round.winner = some winner ∧
        ∃ g, Yields (settleBidders (stateRecords id) config.usdc round.operator winner
            round.winningBid round.bidders) env w.frame ⟨⟩ g ∧
          f' = g.withStore (g.store.setRound id { round with status := .Settled }) := by
      simp [settle, hw.configured, hr, hs, Unique.exists_iff]
    rw [hcall]
    constructor
    · rintro ⟨winner, hwin, g, hg, rfl⟩
      obtain ⟨c, hc, rfl⟩ := (hloop winner hwin g ⟨⟩).mp hg
      refine ⟨hs, winner, hwin, c, by rwa [hpayouts], ?_⟩
      rw [hpayouts, ← hstore]
      rfl
    · rintro ⟨-, winner, hwin, c, hc, rfl⟩
      rw [hpayouts] at hc
      refine ⟨winner, hwin, _, (hloop winner hwin _ ⟨⟩).mpr ⟨c, hc, rfl⟩, ?_⟩
      rw [hpayouts, ← hstore]
      rfl
  · simp [settle, hw.configured, hr, hs]

/-! ## The step behind a successful call -/

/-- The frame after one round was written and `ts` were paid, as a step. -/
theorem World.Sound.advances_v1 (hw : w.Sound env.toHost config now)
    (hr : w.store.round id = some round) {action : Action} {status : Status}
    {bidders : List Address} {winner : Option Address} {winningBid : I128}
    {states : Address → Option BidState} {seals : Address → Option SealEntry} {c : Balances}
    {ts : List Transfer} (hc : transferAll? env.accepts w.balances ts = some c)
    (hstep : Transition env.toHost env.timestamp.toNat (round.view config (w.store.state id)) action
      ts (({ round with status, bidders, winner, winningBid } : Round).view config states)) :
    w.Advances env (.v1 id) action ((w.frame.withStore (w.store.writeRound id
      { round with status, bidders, winner, winningBid } states seals)).paid c ts) where
  step := ⟨_, _, (hw.round_sound hr).1, Store.writeRound_view hw.configured .., hstep⟩
  evolves := Store.writeRound_evolves hr ..
  paid := hc

/-- The same without transfers. -/
theorem World.Sound.advances_v1_free (hw : w.Sound env.toHost config now)
    (hr : w.store.round id = some round) {action : Action} {status : Status}
    {bidders : List Address} {winner : Option Address} {winningBid : I128}
    {states : Address → Option BidState} {seals : Address → Option SealEntry}
    (hstep : Transition env.toHost env.timestamp.toNat (round.view config (w.store.state id)) action
      [] (({ round with status, bidders, winner, winningBid } : Round).view config states)) :
    w.Advances env (.v1 id) action (w.frame.withStore (w.store.writeRound id
      { round with status, bidders, winner, winningBid } states seals)) := by
  rw [← Frame.withStore_paid_nil]
  exact hw.advances_v1 hr rfl hstep

theorem Round.view_close (config : GlobalConfig) (round : Round)
    (states : Address → Option BidState) (status : Status) :
    ({ round with status } : Round).view config (fun b => (states b).map EscrowRecord.markSettled) =
      (round.view config states).close status := by
  unfold Round.view SealedRound.close
  congr 1
  funext b
  simp only [Option.map_map]
  rfl

theorem Round.view_update (config : GlobalConfig) (round : Round)
    (states : Address → Option BidState) (b : Address) (state : BidState) :
    round.view config (Function.update states b (some state)) =
      (round.view config states).setEntry b state.entry := by
  unfold Round.view SealedRound.setEntry
  congr 1
  funext c
  by_cases hc : c = b
  · subst hc
    simp
  · simp [Function.update_of_ne hc]

section

variable (hw : w.Sound env.toHost config env.timestamp.toNat) {f' : Frame} {u : Unit}
include hw

theorem advances_commit {b : Address} {commitment : BytesN 32} {ciphertext : Bytes}
    {escrow : I128} {blob : Bytes} (hself : env.auths env.currentContract = false)
    (h : Yields (commit id b commitment ciphertext escrow blob) env w.frame u f') :
    w.Advances env (.v1 id) (.commit b commitment escrow.toInt) f' := by
  cases hr : w.store.round id with
  | none => simp [commit, hr] at h
  | some round =>
    obtain ⟨hauth, hs, ht, hpos, -, hroom, c, hc, rfl⟩ := (yields_commit hw hr ..).mp h
    have hb : b ≠ env.currentContract := by
      rintro rfl
      rw [hself] at hauth
      cases hauth
    refine hw.advances_v1 hr hc ?_
    have hview : ({ round with
        bidders := if b ∈ round.bidders then round.bidders else round.bidders ++ [b] } : Round).view
          config (commitStates (w.store.state id) b commitment escrow) =
        (round.view config (w.store.state id)).enter b (Entry.fresh commitment escrow.toInt) := by
      rw [commitStates, Round.view_update]
      rfl
    rw [hview]
    exact Transition.commit b commitment escrow.toInt hs (UInt64.le_iff_toNat_le.mp ht) hb
      hroom hpos

theorem advances_openReveal {signature : BytesN 96}
    (h : Yields (openReveal id signature) env w.frame u f') :
    w.Advances env (.v1 id) .opening f' := by
  cases hr : w.store.round id with
  | none => simp [openReveal, hr] at h
  | some round =>
    obtain ⟨hs, ht, -, rfl⟩ := (yields_openReveal hw hr ..).mp h
    exact hw.advances_v1_free hr (Transition.opening hs (UInt64.lt_iff_toNat_lt.mp ht))

/-- The nonce is missing when the value is. -/
theorem World.Sound.preimage_none (hr : w.store.round id = some round) {b : Address}
    {state : BidState} (hstate : w.store.state id b = some state)
    (hnone : state.revealedValue = none) : state.preimage = none := by
  have hentry : (round.view config (w.store.state id)).entry b = some state.entry := by
    simp [Round.view, hstate]
  rcases state.recorded ((hw.round_sound hr).2.entries b _ hentry) rfl with
    ⟨-, -, hpreimage⟩ | ⟨value, nonce, hvalue, -⟩
  · exact hpreimage
  · rw [hnone] at hvalue
    cases hvalue

theorem advances_reveal {b : Address} {value : I128} {nonce : BytesN 32}
    (h : Yields (reveal id b value nonce) env w.frame u f') :
    w.Advances env (.v1 id) (.reveal b (bidPreimage value nonce)) f' := by
  cases hr : w.store.round id with
  | none => simp [reveal, hr] at h
  | some round =>
    obtain ⟨hs, ht, state, hstate, hnone, hash, hle, rfl⟩ := (yields_reveal hr ..).mp h
    refine hw.advances_v1_free hr ?_
    rw [Round.view_update]
    exact Transition.reveal b state.entry (bidPreimage value nonce) (some value.toInt) hs
      (UInt64.le_iff_toNat_le.mp ht) (by simp [Round.view, hstate])
      (hw.preimage_none hr hstate hnone) hash ⟨value, nonce, rfl, rfl⟩
      ⟨value.toInt, rfl, hle, fun hf => by cases hf⟩

theorem advances_void (h : Yields (void id) env w.frame u f') :
    w.Advances env (.v1 id) .void f' := by
  cases hr : w.store.round id with
  | none => simp [void, hr] at h
  | some round =>
    obtain ⟨hs, ht, c, hc, rfl⟩ := (yields_void hw hr ..).mp h
    refine hw.advances_v1 hr hc ?_
    rw [Round.view_close]
    exact Transition.void hs ht

theorem advances_clear {o : Option Address} (h : Yields (clear id) env w.frame o f') :
    w.Advances env (.v1 id) .clear f' := by
  cases hr : w.store.round id with
  | none => simp [clear, hr] at h
  | some round =>
    obtain ⟨hs, ht, h⟩ := (yields_clear hw hr ..).mp h
    have ht := UInt64.lt_iff_toNat_lt.mp ht
    split at h
    · next hbest =>
      obtain ⟨-, c, hc, rfl⟩ := h
      refine hw.advances_v1 hr hc ?_
      rw [Round.view_close]
      exact Transition.clearVoid hs ht rfl hbest
    · next winner bid hbest =>
      obtain ⟨-, winningBid, rfl, rfl⟩ := h
      exact hw.advances_v1_free hr (Transition.clear winner winningBid.toInt hs ht rfl hbest)

theorem advances_settle (h : Yields (settle id) env w.frame u f') :
    w.Advances env (.v1 id) .settle f' := by
  cases hr : w.store.round id with
  | none => simp [settle, hr] at h
  | some round =>
    obtain ⟨hs, winner, hwin, c, hc, rfl⟩ := (yields_settle hw hr ..).mp h
    refine hw.advances_v1 hr hc ?_
    rw [Round.view_close]
    exact Transition.settle winner hs hwin rfl

end

end

end SubRosa
