import SubRosa.Auction.Opening
import SubRosa.Guarantees.Exits
import SubRosa.Keeper.Status

/-!
# What the keeper reports and what the contract allows

The phase and the readiness that the keeper derives from a round and a time,
against the calls that succeed at that time.
-/

namespace SubRosa.Keeper

open Invocation TokenLedger JavaScript

/-- The generation that the keeper reads a round as. -/
def keyVersion : RoundKey → ProtocolVersion
  | .v1 _ => .v1
  | .v2 _ => .v2

/-- The stored round as the keeper reads it. -/
def keeperRound (w : World) : RoundKey → Option KeeperRound
  | .v1 id => (w.store.round id).map .v1
  | .v2 id => (w.store.roundV2 id).map .v2

/-- A reader of this world. A read can fail, and only for a round that does not exist as not
found. -/
structure Reads (w : World) (reader : KeeperReader) : Prop where
  round : ∀ (id : UInt64) round, reader.getRound id.toNat = .ok round →
    w.store.round id = some round
  noRound : ∀ (id : UInt64) e, reader.getRound id.toNat = .error e →
    isRoundNotFound (errorName e) = true → w.store.round id = none
  roundV2 : ∀ f, reader.getRoundV2 = some f → ∀ (id : UInt64) round, f id.toNat = .ok round →
    w.store.roundV2 id = some round
  noRoundV2 : ∀ f, reader.getRoundV2 = some f → ∀ (id : UInt64) e, f id.toNat = .error e →
    isRoundNotFound (errorName e) = true → w.store.roundV2 id = none
  revealV3 : ∀ f, reader.getRevealStateV3 = some f → ∀ (id : UInt64) state,
    f id.toNat = .ok state → w.store.revealV3 id = some state

/-- The request for a record that the world does not have fails. -/
def missing (name : String) : Rejection := ⟨⟨name, some "{}"⟩, []⟩

/-- The reader of a world whose requests are answered. -/
def worldReader (w : World) : KeeperReader where
  getRound id := (w.store.round (.ofNat id.toNat)).elim (.error (missing "RoundNotFound")) .ok
  getBidState id bidder :=
    (w.store.state (.ofNat id.toNat) bidder).elim (.error (missing "BidNotFound")) .ok
  getRoundV2 := some fun id =>
    (w.store.roundV2 (.ofNat id.toNat)).elim (.error (missing "RoundNotFound")) .ok
  getSubmissionV2 := some fun id bidder =>
    (w.store.submissionV2 (.ofNat id.toNat) bidder).elim (.error (missing "BidNotFound")) .ok
  getRevealStateV3 := some fun id =>
    (w.store.revealV3 (.ofNat id.toNat)).elim (.error (missing "RevealPolicyRequired")) .ok

/-- The report fits the calls that the contract accepts in this transaction. -/
structure Fits (host : Host) (config : GlobalConfig) (tx : Transaction) (w : World)
    (key : RoundKey) (view : RoundStatusView) : Prop where
  revealReady : view.revealReady = true → ∀ round signature, w.drandRound key = some round →
    host.Verifies config round signature →
    ∃ o, invoke host tx (key.openReveal signature) w = .ok o
  staleOpen : view.phase = .staleOpen → ∃ o, invoke host tx key.void w = .ok o
  readyToClear : view.phase = .readyToClear → ∃ o, invoke host tx key.clear w = .ok o
  readyToSettle : view.phase = .readyToSettle → ∃ o, invoke host tx key.settle w = .ok o
  awaitingOwner : view.phase = .awaitingOwner →
    (∀ r, w.view key = some r → tx.auths r.terms.operator = false) →
    ∀ signature o, invoke host tx (key.openReveal signature) w ≠ .ok o
  awaitingVoid : view.phase = .awaitingVoid →
    (∀ signature o, invoke host tx (key.openReveal signature) w ≠ .ok o) ∧
      ∀ o, invoke host tx key.void w ≠ .ok o
  revealing : view.phase = .revealing ∨ view.phase = .awaitingClear →
    ∀ o, invoke host tx key.clear w ≠ .ok o
  complete : view.phase = .complete → ∀ call, (∀ value, call.key value = some key) →
    ∀ o, invoke host tx call w ≠ .ok o

section

variable {host : Host} {config : GlobalConfig} {tx : Transaction} {w : World} {key : RoundKey}
  {r : SealedRound} {reader : KeeperReader} {engine : Engine} {round : KeeperRound} {now : Nat}

/-! ## What is read -/

theorem worldReader_reads (w : World) : Reads w (worldReader w) := by
  constructor
  · intro id round h
    cases hr : w.store.round id with
    | none => simp [worldReader, hr] at h
    | some r => simpa [worldReader, hr] using h
  · intro id e h _
    cases hr : w.store.round id with
    | none => rfl
    | some r => simp [worldReader, hr] at h
  · rintro f hf id round h
    obtain rfl := Option.some_inj.mp hf
    cases hr : w.store.roundV2 id with
    | none => simp [hr] at h
    | some r => simpa [hr] using h
  · rintro f hf id e h _
    obtain rfl := Option.some_inj.mp hf
    cases hr : w.store.roundV2 id with
    | none => rfl
    | some r => simp [hr] at h
  · rintro f hf id state h
    obtain rfl := Option.some_inj.mp hf
    cases hr : w.store.revealV3 id with
    | none => simp [hr] at h
    | some r => simpa [hr] using h

theorem keeperRound_view (hw : w.Sound host config now) (h : keeperRound w key = some round) :
    ∃ r, w.view key = some r ∧ r.status = round.status ∧
      r.terms.commitDeadline = round.commitDeadline.toNat ∧
      r.terms.revealDeadline = round.revealDeadline.toNat ∧
      w.drandRound key = some round.revealRound := by
  cases key with
  | v1 id =>
    obtain ⟨stored, hstored, rfl⟩ := Option.map_eq_some_iff.mp h
    refine ⟨stored.view config (w.store.state id), ?_, rfl, rfl, rfl, ?_⟩
    · rw [hw.view_v1, hstored, Option.map_some]
    · simp [World.drandRound, hstored, KeeperRound.revealRound]
  | v2 id =>
    obtain ⟨stored, hstored, rfl⟩ := Option.map_eq_some_iff.mp h
    refine ⟨stored.view (w.store.submissionV2 id), ?_, rfl, rfl, rfl, ?_⟩
    · rw [World.view_v2, hstored, Option.map_some]
    · simp [World.drandRound, hstored, KeeperRound.revealRound]

theorem Reads.keeperRound (h : Reads w reader)
    (hread : reader.readKeeperRound engine key.id.toNat (keyVersion key) = .ok round) :
    Keeper.keeperRound w key = some round := by
  cases key with
  | v1 id =>
    change KeeperRound.v1 <$> reader.getRound id.toNat = _ at hread
    cases hget : reader.getRound id.toNat with
    | error e =>
      rw [hget] at hread
      cases hread
    | ok stored =>
      rw [hget] at hread
      cases hread
      simp [Keeper.keeperRound, h.round id stored hget]
  | v2 id =>
    unfold KeeperReader.readKeeperRound keyVersion at hread
    cases hf : reader.getRoundV2 with
    | none =>
      rw [hf] at hread
      cases hread
    | some f =>
      rw [hf] at hread
      change KeeperRound.v2 <$> f id.toNat = _ at hread
      cases hget : f id.toNat with
      | error e =>
        rw [hget] at hread
        cases hread
      | ok stored =>
        rw [hget] at hread
        cases hread
        simp [Keeper.keeperRound, h.roundV2 f hf id stored hget]

/-- A round that is reported as not found does not exist. -/
theorem Reads.notFound (h : Reads w reader) {e : Rejection}
    (hread : reader.readKeeperRound engine key.id.toNat (keyVersion key) = .error e)
    (he : isRoundNotFound (errorName e) = true) : Keeper.keeperRound w key = none := by
  cases key with
  | v1 id =>
    change KeeperRound.v1 <$> reader.getRound id.toNat = _ at hread
    cases hget : reader.getRound id.toNat with
    | error e =>
      rw [hget] at hread
      cases hread
      simp [Keeper.keeperRound, h.noRound id e hget he]
    | ok stored =>
      rw [hget] at hread
      cases hread
  | v2 id =>
    unfold KeeperReader.readKeeperRound keyVersion at hread
    cases hf : reader.getRoundV2 with
    | none =>
      rw [hf] at hread
      cases hread
      have hother : isRoundNotFound "Core v2 reader requires getRoundV2" = false := by decide
      exact absurd (hother.symm.trans he) (by decide)
    | some f =>
      rw [hf] at hread
      change KeeperRound.v2 <$> f id.toNat = _ at hread
      cases hget : f id.toNat with
      | error e =>
        rw [hget] at hread
        cases hread
        simp [Keeper.keeperRound, h.noRoundV2 f hf id e hget he]
      | ok stored =>
        rw [hget] at hread
        cases hread

/-- The opening state that the keeper has for an open round. -/
theorem Reads.revealState (h : Reads w reader) {stored : RoundV2} {state : Option RevealStateV3}
    {id : UInt64}
    (hread : reader.readKeeperRevealState engine id.toNat (.v2 stored) = .ok state) :
    (state = none → stored.protocolVersion = coreV2Version) ∧
      ∀ s, state = some s → stored.protocolVersion = revealPolicyVersion ∧
        w.store.revealV3 id = some s := by
  unfold KeeperReader.readKeeperRevealState at hread
  dsimp only at hread
  split at hread
  · next hversion =>
    cases hread
    exact ⟨fun _ => hversion, nofun⟩
  · split at hread
    · cases hread
    · next hversion =>
      cases hf : reader.getRevealStateV3 with
      | none =>
        rw [hf] at hread
        cases hread
      | some f =>
        rw [hf] at hread
        change (do return some (← f id.toNat)) = _ at hread
        cases hget : f id.toNat with
        | error e =>
          rw [hget] at hread
          cases hread
        | ok s =>
          rw [hget] at hread
          cases hread
          refine ⟨nofun, fun s' hs' => ?_⟩
          cases hs'
          exact ⟨not_not.mp hversion, h.revealV3 f hf id s hget⟩

/-- The opening state says whether the round is of the third version. -/
theorem Reads.third (h : Reads w reader) (hround : Keeper.keeperRound w key = some round)
    {state : Option RevealStateV3}
    (hread : reader.readKeeperRevealState engine key.id.toNat round = .ok state) :
    (state = none → ¬ w.Third key) ∧
      ∀ s, state = some s → w.Third key ∧ w.store.revealV3 key.id = some s := by
  cases key with
  | v1 id =>
    obtain ⟨stored, -, rfl⟩ := Option.map_eq_some_iff.mp hround
    cases hread
    exact ⟨fun _ hthird => hthird, nofun⟩
  | v2 id =>
    obtain ⟨stored, hstored, rfl⟩ := Option.map_eq_some_iff.mp hround
    obtain ⟨hnone, hsome⟩ := h.revealState hread
    refine ⟨fun hs hthird => ?_, fun s hs => ?_⟩
    · obtain ⟨other, hother, hversion⟩ := hthird
      obtain rfl : stored = other := Option.some_inj.mp (hstored.symm.trans hother)
      exact absurd ((hnone hs).symm.trans hversion) (by decide)
    · obtain ⟨hversion, hstate⟩ := hsome s hs
      exact ⟨⟨stored, hstored, hversion⟩, hstate⟩

/-! ## What is decided -/

/-- What a phase says about a round. -/
def KeeperDryRunPhase.Means (status : Status) (revealDeadline nowSeconds : Nat)
    (revealState : Option RevealStateV3) : KeeperDryRunPhase → Prop
  | .awaitingDrand => status = .Open
  | .awaitingOwner => status = .Open ∧ ∃ state fallbackAt, revealState = some state ∧
      state.policy = .OwnerTriggered fallbackAt ∧ nowSeconds < fallbackAt.toNat
  | .awaitingVoid => status = .Open ∧ revealState.isSome = true ∧ revealDeadline < nowSeconds ∧
      nowSeconds ≤ revealDeadline + voidGraceSeconds
  | .staleOpen => status = .Open ∧ revealDeadline + voidGraceSeconds < nowSeconds
  | .revealing => status = .Revealing ∧ nowSeconds ≤ revealDeadline
  | .awaitingClear => status = .Revealing ∧ nowSeconds ≤ revealDeadline
  | .readyToClear => status = .Revealing ∧ revealDeadline < nowSeconds
  | .readyToSettle => status = .Cleared
  | .complete => status = .Settled ∨ status = .Voided

theorem waitsFor_means {revealDeadline nowSeconds : Nat} {revealState : Option RevealStateV3}
    {decision : KeeperDryRunDecision} (h : waitsFor nowSeconds revealDeadline
      (revealDeadline + voidGraceSeconds) revealState = some decision) :
    decision.currentPhase.Means .Open revealDeadline nowSeconds revealState := by
  unfold waitsFor at h
  split at h
  · cases h
  · next state =>
    split at h
    · cases h
    · next hvoid =>
      split at h
      · next hover =>
        cases h
        exact ⟨rfl, rfl, hover, Nat.le_of_not_lt hvoid⟩
      · split at h
        · next fallbackAt hpolicy =>
          split at h
          · next hearly =>
            cases h
            exact ⟨rfl, state, fallbackAt, rfl, hpolicy, hearly⟩
          · cases h
        · cases h

theorem decide_means (status : Status) (revealDeadline bidderCount : Nat)
    (revealedCount : Option Nat) (nowSeconds : Nat) (revealState : Option RevealStateV3) :
    (decideKeeperDryRunAction status revealDeadline bidderCount revealedCount nowSeconds
      revealState).currentPhase.Means status revealDeadline nowSeconds revealState := by
  unfold decideKeeperDryRunAction
  cases status with
  | Open =>
    dsimp only
    split
    · next decision hdecision => exact waitsFor_means hdecision
    · split
      · next hvoid => exact ⟨rfl, hvoid⟩
      · exact rfl
  | Revealing =>
    dsimp only
    split
    · next hover => exact ⟨rfl, hover⟩
    · next hto =>
      have hto := Nat.le_of_not_lt hto
      split
      · exact ⟨rfl, hto⟩
      · split
        · exact ⟨rfl, hto⟩
        · exact ⟨rfl, hto⟩
  | Cleared => exact rfl
  | Settled => exact Or.inl rfl
  | Voided => exact Or.inr rfl

/-! ## What is reported -/

theorem drandRoundTime_ok {n : Nat} {info : DrandRoundInfo} {time : Nat}
    (h : drandRoundTime n info = .ok time) :
    1 ≤ n ∧ time = info.genesisTime + info.period * (n - 1) := by
  unfold drandRoundTime at h
  obtain ⟨hround, h⟩ := Sdk.throwIf_bind_eq_ok.mp h
  obtain ⟨-, h⟩ := Sdk.throwIf_bind_eq_ok.mp h
  obtain ⟨-, h⟩ := Sdk.throwIf_bind_eq_ok.mp h
  cases h
  exact ⟨Nat.le_of_not_lt fun hlt => hround (Or.inr hlt), rfl⟩

/-- A report is about a round that could not be read or about one that was. -/
theorem buildRoundStatus_ok {args : BuildRoundStatusArgs} {view : RoundStatusView}
    (h : buildRoundStatus engine args = .ok view) :
    (∃ e, args.reader.readKeeperRound engine args.roundId args.protocolVersion = .error e ∧
      view = unreadStatus args e) ∨
    ∃ round revealedCount info publishAtS revealState,
      args.reader.readKeeperRound engine args.roundId args.protocolVersion = .ok round ∧
      args.info = .ok info ∧
      drandRoundTime round.revealRound.toNat info = .ok publishAtS ∧
      (round.status = .Open →
        args.reader.readKeeperRevealState engine args.roundId round = .ok revealState) ∧
      (round.status ≠ .Open → revealState = none) ∧
      view = readStatus args round revealedCount publishAtS revealState := by
  unfold buildRoundStatus at h
  split at h
  · next e he =>
    cases h
    exact Or.inl ⟨e, he, rfl⟩
  · next round hround =>
    obtain ⟨info, hinfo, h⟩ := bind_eq_ok.mp h
    obtain ⟨publishAtS, htime, h⟩ := bind_eq_ok.mp h
    refine Or.inr ⟨round, args.reader.countKeeperRevealed engine args.roundId round.bidders
      args.protocolVersion, info, publishAtS, ?_⟩
    have htime : drandRoundTime round.revealRound.toNat info = .ok publishAtS := by
      cases hdrand : drandRoundTime round.revealRound.toNat info with
      | error e =>
        rw [hdrand] at htime
        cases htime
      | ok t =>
        rw [hdrand] at htime
        cases htime
        rfl
    split at h
    · next hopen =>
      obtain ⟨revealState, hstate, h⟩ := bind_eq_ok.mp h
      cases h
      exact ⟨revealState, hround, hinfo, htime, fun _ => hstate, fun hne => absurd hopen hne, rfl⟩
    · next hopen =>
      cases h
      exact ⟨none, hround, hinfo, htime, fun heq => absurd heq hopen, fun _ => rfl, rfl⟩

/-! ## The calls that a report announces -/

/-- The opening rules hold when the report says that the round can be opened. -/
theorem Reads.opens_for_all (h : Reads w reader) (hround : Keeper.keeperRound w key = some round)
    {revealState : Option RevealStateV3}
    (hread : reader.readKeeperRevealState engine key.id.toNat round = .ok revealState)
    {drand : UInt64} (hdrand : w.drandRound key = some drand)
    (hdue : exactTimeOfRound config drand ≤ tx.timestamp.toNat)
    (howner : ownerOnly tx.timestamp.toNat revealState = false) :
    w.OpensForAll config tx.timestamp key := by
  intro hthird
  obtain ⟨hnone, hsome⟩ := h.third hround hread
  refine ⟨fun other hother => ?_, fun state fallbackAt hstate hpolicy => ?_⟩
  · obtain rfl : drand = other := Option.some_inj.mp (hdrand.symm.trans hother)
    exact hdue
  · cases revealState with
    | none => exact absurd hthird (hnone rfl)
    | some s =>
      obtain rfl : s = state := Option.some_inj.mp ((hsome s rfl).2.symm.trans hstate)
      simp only [ownerOnly, Option.map_some, hpolicy, decide_eq_false_iff_not, not_lt] at howner
      exact UInt64.le_iff_toNat_le.mpr howner

/-- A round whose opening state was read has its policy. -/
theorem Reads.policed (h : Reads w reader) (hw : w.Sound host config now)
    (hround : Keeper.keeperRound w key = some round) {revealState : Option RevealStateV3}
    (hread : reader.readKeeperRevealState engine key.id.toNat round = .ok revealState) :
    w.store.Policed key.id := by
  intro stored hstored hversion
  cases key with
  | v1 id =>
    obtain ⟨other, hother, -⟩ := Option.map_eq_some_iff.mp hround
    rcases hw.distinct id with hnone | hnone
    · rw [hother] at hnone
      cases hnone
    · rw [show w.store.roundV2 id = some stored from hstored] at hnone
      cases hnone
  | v2 id =>
    obtain ⟨hnone, hsome⟩ := h.third hround hread
    cases revealState with
    | none => exact absurd ⟨stored, hstored, hversion⟩ (hnone rfl)
    | some s => rw [(hsome s rfl).2, Option.isSome_some]

/-- A call on a round, whatever it returns, is a step of a stored round. -/
theorem lifecycle_step (hw : w.Sound host config tx.timestamp.toNat)
    (hself : tx.auths host.currentContract = false) {call : Call}
    (hkey : ∀ value, call.key value = some key) {o : Outcome}
    (ho : invoke host tx call w = .ok o) :
    ∃ action r r', w.view key = some r ∧
      Transition host tx.timestamp.toNat r action o.transfers r' := by
  have hunit := hkey .unit
  obtain ⟨action, haction⟩ : ∃ action, call.action = some action := by
    cases call <;> first
      | exact ⟨_, rfl⟩
      | cases hunit
  obtain ⟨r, r', hr, -, hstep⟩ := hw.invoke_step hself ho (hkey o.value) haction
  exact ⟨action, r, r', hr, hstep⟩

/-- A round that does not exist or has ended has no call. -/
theorem no_lifecycle_call (hw : w.Sound host config tx.timestamp.toNat)
    (hself : tx.auths host.currentContract = false)
    (hdead : ∀ r, w.view key = some r → ¬ r.Live) {call : Call}
    (hkey : ∀ value, call.key value = some key) (o : Outcome) :
    invoke host tx call w ≠ .ok o := by
  intro ho
  obtain ⟨action, r, r', hr, hstep⟩ := lifecycle_step hw hself hkey ho
  exact hdead r hr hstep.live

/-- No clear before the reveal deadline is over. -/
theorem no_clear (hw : w.Sound host config tx.timestamp.toNat)
    (hself : tx.auths host.currentContract = false) (hr : w.view key = some r)
    (hto : tx.timestamp.toNat ≤ r.terms.revealDeadline) (o : Outcome) :
    invoke host tx key.clear w ≠ .ok o := by
  intro ho
  have hkey : key.clear.key o.value = some key := by cases key <;> rfl
  have haction : key.clear.action = some .clear := by cases key <;> rfl
  obtain ⟨q, q', hq, -, hstep⟩ := hw.invoke_step hself ho hkey haction
  obtain rfl : r = q := Option.some_inj.mp (hr.symm.trans hq)
  generalize o.transfers = ts at hstep
  cases hstep with
  | clear _ _ _ hover => exact absurd hto (Nat.not_le_of_lt hover)
  | clearVoid _ hover => exact absurd hto (Nat.not_le_of_lt hover)
  | finalize _ hover => exact absurd hto (Nat.not_le_of_lt hover)

/-- No void before the grace is over. -/
theorem no_void (hw : w.Sound host config tx.timestamp.toNat)
    (hself : tx.auths host.currentContract = false) (hr : w.view key = some r)
    (hto : tx.timestamp.toNat ≤ r.terms.revealDeadline + voidGraceSeconds) (o : Outcome) :
    invoke host tx key.void w ≠ .ok o := by
  intro ho
  have hkey : key.void.key o.value = some key := by cases key <;> rfl
  have haction : key.void.action = some .void := by cases key <;> rfl
  obtain ⟨q, q', hq, -, hstep⟩ := hw.invoke_step hself ho hkey haction
  obtain rfl : r = q := Option.some_inj.mp (hr.symm.trans hq)
  generalize o.transfers = ts at hstep
  cases hstep with
  | void _ hover => exact absurd hto (Nat.not_le_of_lt hover)

/-- What a successful opening of a third-version round checked. -/
theorem third_opening (hw : w.Sound host config tx.timestamp.toNat)
    (hself : tx.auths host.currentContract = false) (hthird : w.Third key)
    {signature : BytesN 96} {o : Outcome}
    (ho : invoke host tx (key.openReveal signature) w = .ok o) :
    ∃ id stored state, key = .v2 id ∧ w.store.roundV2 id = some stored ∧
      w.store.revealV3 id = some state ∧ OpensAt ⟨host, tx⟩ config stored state := by
  obtain ⟨hkey, haction⟩ := openReveal_on key signature o.value
  obtain ⟨round, signature', -, -, -, hopens⟩ := hw.open_checked hself ho hkey haction
  cases key with
  | v1 id => exact hthird.elim
  | v2 id =>
    obtain ⟨stored, hstored, hversion⟩ := hthird
    obtain ⟨state, hstate, hopens⟩ := hopens stored hstored rfl hversion
    exact ⟨id, stored, state, rfl, hstored, hstate, hopens⟩

theorem no_view (hw : w.Sound host config now) (hnone : Keeper.keeperRound w key = none)
    (r : SealedRound) (hr : w.view key = some r) : ¬ r.Live := by
  cases key with
  | v1 id =>
    obtain ⟨stored, hstored, -⟩ := hw.of_view_v1 hr
    simp [Keeper.keeperRound, hstored] at hnone
  | v2 id =>
    obtain ⟨stored, hstored, -⟩ := World.of_view_v2 hr
    simp [Keeper.keeperRound, hstored] at hnone

/-- A round that could not be read is reported as ended only when it does not exist. -/
theorem fits_unread {args : BuildRoundStatusArgs} (hw : w.Sound host config tx.timestamp.toNat)
    (hself : tx.auths host.currentContract = false) {e : Rejection}
    (hmissing : isRoundNotFound (errorName e) = true → Keeper.keeperRound w key = none) :
    Fits host config tx w key (unreadStatus args e) := by
  have hphase : (unreadStatus args e).phase = .complete ∧
      isRoundNotFound (errorName e) = true ∨ (unreadStatus args e).phase = .awaitingDrand := by
    unfold unreadStatus
    cases isRoundNotFound (errorName e) with
    | true => exact Or.inl ⟨rfl, rfl⟩
    | false => exact Or.inr rfl
  have hother : ∀ phase, (unreadStatus args e).phase = phase → phase = .complete ∨
      phase = .awaitingDrand := by
    rintro phase rfl
    exact hphase.imp And.left id
  exact {
    revealReady := nofun
    staleOpen := fun h => by cases hother _ h <;> contradiction
    readyToClear := fun h => by cases hother _ h <;> contradiction
    readyToSettle := fun h => by cases hother _ h <;> contradiction
    awaitingOwner := fun h => by cases hother _ h <;> contradiction
    awaitingVoid := fun h => by cases hother _ h <;> contradiction
    revealing := fun h => by rcases h with h | h <;> cases hother _ h <;> contradiction
    complete := by
      intro h call hkey o
      rcases hphase with ⟨-, hmissed⟩ | hwait
      · exact no_lifecycle_call hw hself (no_view hw (hmissing hmissed)) hkey o
      · rw [hwait] at h
        cases h }

/-- **Decisions.** What the keeper reports at the time of a transaction fits the calls that
the contract accepts in it, whoever makes them. -/
theorem status_fits {c₀ c : Chain} {events : List Event} (hd : Deployed config c₀)
    (hrun : Run host c₀ events c) (hnow : c.now ≤ tx.timestamp)
    (hself : tx.auths host.currentContract = false) (hreceives : tx.Receives host)
    {args : BuildRoundStatusArgs} (hreader : Reads c.world args.reader)
    (hversion : args.protocolVersion = keyVersion key) (hid : args.roundId = key.id.toNat)
    (hclock : args.nowSeconds = tx.timestamp.toNat)
    (hinfo : ∀ info, args.info = .ok info →
      info = ⟨config.drandGenesis.toNat, config.drandPeriod.toNat⟩)
    {view : RoundStatusView} (h : buildRoundStatus engine args = .ok view) :
    Fits host config tx c.world key view := by
  have hs := hrun.sound hd.chain_sound
  have hf := hrun.funded hd
  have hw := hs.world.later (UInt64.le_iff_toNat_le.mp hnow)
  rcases buildRoundStatus_ok h with ⟨e, hread, rfl⟩ |
    ⟨round, revealedCount, info, publishAtS, revealState, hread, hdrandInfo, htime, hopen,
      hclosed, rfl⟩
  · rw [hid, hversion] at hread
    exact fits_unread hw hself (hreader.notFound hread)
  rw [hid, hversion] at hread
  rw [hid] at hopen
  have hround := hreader.keeperRound hread
  obtain ⟨r, hr, hstatus, hcommit, hreveal, hdrand⟩ := keeperRound_view hw hround
  have hmeans := decide_means round.status round.revealDeadline.toNat round.bidders.length
    revealedCount tx.timestamp.toNat revealState
  have hphase : (readStatus args round revealedCount publishAtS revealState).phase =
      (decideKeeperDryRunAction round.status round.revealDeadline.toNat round.bidders.length
        revealedCount tx.timestamp.toNat revealState).currentPhase := by
    rw [← hclock]
    rfl
  rw [← hphase, ← hstatus, ← hreveal] at hmeans
  have hsound := hw.views key r hr
  have hpays : ∀ {t : Status}, r.status = t → r.Payable tx.timestamp.toNat →
      ∃ o, invoke host tx (key.payout t) c.world = .ok o := by
    rintro t rfl hpay
    obtain ⟨o, -, ho, -⟩ := hf.pays_out hs hr hnow hself hpay
      fun u hu => hreceives u (hsound.paidBy_outgoing u hu).1
    exact ⟨o, ho⟩
  exact {
    revealReady := by
      intro hready drand signature hother hsig
      obtain rfl : drand = round.revealRound := Option.some_inj.mp (hother.symm.trans hdrand)
      simp only [readStatus, Bool.and_eq_true, decide_eq_true_eq, Bool.not_eq_true',
        hclock] at hready
      obtain ⟨⟨⟨⟨hst, hafter⟩, hpublished⟩, hto⟩, howner⟩ := hready
      have hread := hopen hst
      obtain ⟨hone, htime⟩ := drandRoundTime_ok htime
      have hdue : exactTimeOfRound config round.revealRound ≤ tx.timestamp.toNat := by
        rw [exactTimeOfRound_toNat (fun h => by simp [h] at hone), Nat.cast_le]
        rw [htime, hinfo info hdrandInfo] at hpublished
        exact hpublished
      exact hw.can_open hr (hstatus.trans hst) (hcommit ▸ hafter) (hreveal ▸ hto) hdrand hsig
        (hreader.opens_for_all hround hread hdrand hdue howner)
        (hreader.policed hw hround hread)
    staleOpen := by
      intro hstale
      rw [hstale] at hmeans
      obtain ⟨hst, hover⟩ := hmeans
      exact hpays hst (Or.inr (Or.inr ⟨hst, hover⟩))
    readyToClear := by
      intro hready
      rw [hready] at hmeans
      obtain ⟨hst, hover⟩ := hmeans
      by_cases hpay : r.Payable tx.timestamp.toNat
      · exact hpays hst hpay
      · obtain ⟨o, ho, -⟩ := hw.can_clear hr hst hover fun hp hbest =>
          absurd (Or.inr (Or.inl ⟨hst, hover, hp, hbest⟩)) hpay
        exact ⟨o, ho⟩
    readyToSettle := by
      intro hready
      rw [hready] at hmeans
      exact hpays hmeans (Or.inl hmeans)
    awaitingOwner := by
      intro hawaiting hother signature o ho
      rw [hawaiting] at hmeans
      obtain ⟨hst, state, fallbackAt, hstate, hpolicy, hearly⟩ := hmeans
      obtain ⟨hthird, hstored⟩ :=
        (hreader.third hround (hopen (hstatus.symm.trans hst))).2 state hstate
      obtain ⟨id, stored, other, rfl, hround', hother', hopens⟩ :=
        third_opening hw hself hthird ho
      obtain rfl : state = other := Option.some_inj.mp (hstored.symm.trans hother')
      have hauth := hopens.opener fallbackAt hpolicy (UInt64.lt_iff_toNat_lt.mpr hearly)
      have hview : c.world.view (.v2 id) =
          some (stored.view (c.world.store.submissionV2 id)) := World.view_roundV2 hround'
      rw [show tx.auths stored.operator = false from hother _ hview] at hauth
      cases hauth
    awaitingVoid := by
      intro hawaiting
      rw [hawaiting] at hmeans
      obtain ⟨hst, hsome, hover, hto⟩ := hmeans
      obtain ⟨state, hstate⟩ := Option.isSome_iff_exists.mp hsome
      obtain ⟨hthird, -⟩ :=
        (hreader.third hround (hopen (hstatus.symm.trans hst))).2 state hstate
      refine ⟨fun signature o ho => ?_, no_void hw hself hr hto⟩
      obtain ⟨id, stored, other, rfl, hround', -, hopens⟩ := third_opening hw hself hthird ho
      have hdue := (hw.opens_due hr hround' hopens).2
      omega
    revealing := by
      intro hrevealing
      have hto : tx.timestamp.toNat ≤ r.terms.revealDeadline := by
        rcases hrevealing with h | h <;> rw [h] at hmeans <;> exact hmeans.2
      exact no_clear hw hself hr hto
    complete := by
      intro hcomplete call hkey o
      rw [hcomplete] at hmeans
      refine no_lifecycle_call hw hself (fun q hq => ?_) hkey o
      obtain rfl : r = q := Option.some_inj.mp (hr.symm.trans hq)
      rcases hmeans with h | h <;> simp [SealedRound.Live, h] }

/-- What is asked about the sample sale. -/
def sampleStatusArgs (c : Chain) (nowSeconds : Nat) : BuildRoundStatusArgs where
  protocolVersion := .v2
  reader := worldReader c.world
  info := .ok ⟨Sample.config.drandGenesis.toNat, Sample.config.drandPeriod.toNat⟩
  roundId := 1
  nowSeconds
  settlement := .none
  watched := none

/-- The sale that nobody opened is reported as stale, and Bob can void it. -/
theorem status_fits_sample : ∃ c events view,
    Run Sample.host Sample.deployed events c ∧
    buildRoundStatus silentEngine (sampleStatusArgs c 5000) = .ok view ∧ view.phase = .staleOpen ∧
    ∃ o, invoke Sample.host (Sample.tx Sample.bob 5000) (.voidV2 1) c.world = .ok o := by
  obtain ⟨c, events, hrun, hstate⟩ := Chain.exec_reaches Sample.host
    Sample.deployed Sample.sale
    (fun c _ => (decide (c.now ≤ 5000),
      (buildRoundStatus silentEngine (sampleStatusArgs c 5000)).toOption.map RoundStatusView.phase))
    ((true, some .staleOpen)) (by rfl)
  obtain ⟨hnow, hview⟩ := Prod.mk.inj hstate
  obtain ⟨view, hview, hphase⟩ := Option.map_eq_some_iff.mp hview
  have hbuilt : buildRoundStatus silentEngine (sampleStatusArgs c 5000) = .ok view := by
    cases hresult : buildRoundStatus silentEngine (sampleStatusArgs c 5000) with
    | error e =>
      rw [hresult] at hview
      cases hview
    | ok v =>
      rw [hresult] at hview
      exact congrArg Except.ok (Option.some_inj.mp hview)
  have hfits : Fits Sample.host Sample.config (Sample.tx Sample.bob 5000) c.world (.v2 1) view :=
    status_fits Sample.deployed_ok hrun (of_decide_eq_true hnow) rfl (fun _ _ => rfl)
      (worldReader_reads c.world) rfl rfl rfl (fun _ h => (Except.ok.inj h).symm) hbuilt
  exact ⟨c, events, view, hrun, hbuilt, hphase, hfits.staleOpen hphase⟩

end

end SubRosa.Keeper
