import SubRosa.Auction.Enabled
import SubRosa.Auction.Opening
import SubRosa.Auction.Rejections

/-!
# Refused calls

The error that an opening, a clearing, a settlement or a voiding reports, by
the status of the round. Payouts trap or go through, they report nothing.
-/

namespace SubRosa

open MachineInt Invocation TokenLedger EscrowRecord

/-! ## Payouts report no error -/

section

variable {S : Type} (R : Records S)

theorem silent_transfer (asset source target : Address) (amount : I128) :
    Silent (transfer asset source target amount) :=
  silent_read.bind fun _ => silent_get.bind fun _ => (silent_demand _).bind fun _ =>
    (silent_okOrTrap _).bind fun _ => silent_set _

theorem Records.silent_tryGet (bidder : Address) : Silent (R.tryGet bidder) :=
  silent_get.bind fun _ => silent_pure _

theorem Records.silent_set (bidder : Address) (record : S) : Silent (R.set bidder record) :=
  silent_modify _

theorem silent_payPositive (asset target : Address) (amount : I128) :
    Silent (payPositive asset target amount) :=
  silent_read.bind fun _ => .ite (silent_transfer _ _ _ _) (silent_pure _)

variable [EscrowRecord S]

theorem silent_payBidder (asset operator winner : Address) (winningBid : I128) (bidder : Address)
    (state : S) : Silent (payBidder asset operator winner winningBid bidder state) := by
  refine silent_read.bind fun env => .ite ?_ (silent_payPositive _ _ _)
  exact (silent_transfer _ _ _ _).bind fun _ => (silent_okOrTrap _).bind fun _ =>
    silent_payPositive _ _ _

theorem silent_settleBidders (asset operator winner : Address) (winningBid : I128)
    (bidders : List Address) :
    Silent (settleBidders R asset operator winner winningBid bidders) := by
  refine silent_forM (fun bidder => (R.silent_tryGet bidder).bind fun found => ?_) bidders
  cases found with
  | none => exact silent_pure _
  | some state =>
    exact .ite (silent_pure _) ((silent_payBidder _ _ _ _ _ _).bind fun _ => R.silent_set _ _)

theorem silent_refundBidders (asset : Address) (bidders : List Address) :
    Silent (refundBidders R asset bidders) := by
  refine silent_forM (fun bidder => silent_read.bind fun env =>
    (R.silent_tryGet bidder).bind fun found => ?_) bidders
  cases found with
  | none => exact silent_pure _
  | some state =>
    exact .ite ((silent_transfer _ _ _ _).bind fun _ => R.silent_set _ _) (silent_pure _)

theorem silent_refundBiddersV2 (asset : Address) (bidders : List Address) :
    Silent (refundBiddersV2 R asset bidders) := by
  refine silent_forM (fun bidder => silent_read.bind fun env =>
    (R.silent_tryGet bidder).bind fun found => ?_) bidders
  cases found with
  | none => exact silent_pure _
  | some state =>
    exact .ite ((silent_transfer _ _ _ _).bind fun _ => R.silent_set _ _) (R.silent_set _ _)

end

theorem silent_refundAll (round : Round) (id : UInt64) : Silent (refundAll round id) := by
  refine silent_get.bind fun f => ?_
  cases f.store.config with
  | none => exact silent_pure _
  | some config => exact silent_refundBidders _ _ _

theorem silent_returnLot (round : RoundV2) : Silent (returnLot round) := by
  refine silent_read.bind fun env => ?_
  cases round.lotAsset with
  | none => exact silent_pure _
  | some asset => exact silent_transfer _ _ _ _

theorem silent_refundAllV2 (round : RoundV2) (id : UInt64) : Silent (refundAllV2 round id) := by
  unfold refundAllV2
  cases round.paymentAsset with
  | none => exact silent_returnLot round
  | some asset => exact (silent_refundBiddersV2 _ _ _).bind fun _ => silent_returnLot round

theorem silent_finalizeSubmissions (id : UInt64) (bidders : List Address) :
    Silent (finalizeSubmissions id bidders) := by
  refine silent_forM (fun bidder => ((submissionRecords id).silent_tryGet bidder).bind
    fun found => ?_) bidders
  cases found with
  | none => exact silent_pure _
  | some state => exact (submissionRecords id).silent_set _ _

theorem silent_setRound (id : UInt64) (round : Round) : Silent (setRound id round) :=
  silent_modify _

theorem silent_setRoundV2 (id : UInt64) (round : RoundV2) : Silent (setRoundV2 id round) :=
  silent_modify _

theorem silent_extendRoundSeals (id : UInt64) (bidders : List Address) (deadline : UInt64) :
    Silent (extendRoundSeals id bidders deadline) := silent_read.bind fun _ => silent_modify _

theorem silent_extendRoundSealsV2 (id : UInt64) (bidders : List Address) (deadline : UInt64) :
    Silent (extendRoundSealsV2 id bidders deadline) := silent_read.bind fun _ => silent_modify _

theorem silent_storeOpening (id : UInt64) (state : Option RevealStateV3) :
    Silent (storeOpening id state) := by
  cases state with
  | none => exact silent_pure _
  | some state => exact silent_read.bind fun _ => silent_modify _

theorem silent_verifyRound (config : GlobalConfig) (round : UInt64) (signature : BytesN 96) :
    Silent (verifyRound config round signature) :=
  silent_read.bind fun _ => (silent_okOrTrap _).bind fun _ => silent_okOrTrap _

theorem silent_requireOpener (policy : RevealPolicy) (operator : Address) :
    Silent (requireOpener policy operator) := by
  refine silent_read.bind fun env => ?_
  cases policy with
  | Timed => exact silent_pure _
  | OwnerTriggered fallbackAt =>
    exact .ite (silent_read.bind fun _ => silent_demand _) (silent_pure _)

/-! ## Errors by status -/

/-- What clearing reports. -/
def Status.clearError : Status → Error
  | .Open => .RevealNotOpen
  | .Revealing => .RevealStillOpen
  | .Cleared => .AlreadyCleared
  | .Settled => .AlreadySettled
  | .Voided => .RoundVoided

/-- What settling reports, when the round is not cleared. -/
def Status.settleError : Status → Error
  | .Settled => .AlreadySettled
  | .Voided => .RoundVoided
  | _ => .NotCleared

/-- What voiding reports. -/
def Status.voidError : Status → Error
  | .Settled => .AlreadySettled
  | .Voided => .RoundVoided
  | _ => .NotVoidable

/-- What opening may report for a round that has its policy. -/
def RoundKey.openErrors (key : RoundKey) : Status → List Error
  | .Open =>
    match key with
    | v1 _ => [.CommitNotClosed, .InvalidDrandSignature]
    | v2 _ => [.CommitNotClosed, .RevealWindowClosed, .InvalidDrandSignature]
  | .Revealing => [.RevealAlreadyOpen]
  | .Cleared => [.AlreadyCleared]
  | .Settled => [.AlreadySettled]
  | .Voided => [.RoundVoided]

section

variable {env : Env} {w : World} {id : UInt64} {e : Error} {config : GlobalConfig} {now : Nat}

theorem fails_clear {round : Round} (hr : w.store.round id = some round)
    (h : Fails (clear id) env w.frame (.error e)) : e = round.status.clearError := by
  cases hs : round.status with
  | Revealing =>
    simp [clear, getRound, hr, hs] at h
    rcases h with ⟨-, he⟩ | ⟨-, h⟩
    · exact he
    · refine absurd h (Silent.ite ?_ ?_ env w.frame e)
      · exact (silent_setRound _ _).bind fun _ => (silent_refundAll _ _).map _
      · exact (silent_setRound _ _).map _
  | _ =>
    simp [clear, getRound, hr, hs] at h
    exact h

theorem fails_clearV2 {round : RoundV2} (hr : w.store.roundV2 id = some round)
    (h : Fails (clearV2 id) env w.frame (.error e)) : e = round.status.clearError := by
  cases hs : round.status with
  | Revealing =>
    simp [clearV2, getRoundV2, hr, hs] at h
    rcases h with ⟨-, he⟩ | ⟨-, h⟩
    · exact he
    · refine absurd h (Silent.ite ?_ (silent_get.bind fun f => Silent.ite ?_ ?_) env w.frame e)
      · exact (silent_finalizeSubmissions _ _).bind fun _ => (silent_setRoundV2 _ _).map _
      · exact (silent_setRoundV2 _ _).bind fun _ => (silent_refundAllV2 _ _).map _
      · exact (silent_setRoundV2 _ _).map _
  | _ =>
    simp [clearV2, getRoundV2, hr, hs] at h
    exact h

theorem fails_void {round : Round} (hr : w.store.round id = some round)
    (h : Fails (void id) env w.frame (.error e)) : e = round.status.voidError := by
  cases hs : round.status with
  | Open =>
    simp [void, getRound, hr, hs] at h
    obtain ⟨graceEnd, -, ⟨-, he⟩ | ⟨-, h | h⟩⟩ := h
    · exact he
    · exact absurd h (silent_setRound _ _ _ _ _)
    · exact absurd h (silent_refundAll _ _ _ _ _)
  | _ =>
    simp [void, getRound, hr, hs] at h
    exact h

theorem fails_voidV2 {round : RoundV2} (hr : w.store.roundV2 id = some round)
    (h : Fails (voidV2 id) env w.frame (.error e)) : e = round.status.voidError := by
  cases hs : round.status with
  | Open =>
    simp [voidV2, getRoundV2, hr, hs] at h
    rcases h with ⟨-, he⟩ | ⟨-, h | h⟩
    · exact he
    · exact absurd h (silent_setRoundV2 _ _ _ _ _)
    · exact absurd h (silent_refundAllV2 _ _ _ _ _)
  | _ =>
    simp [voidV2, getRoundV2, hr, hs] at h
    exact h

/-- A cleared round has its winner, so that it is settled or the call traps. -/
theorem World.Sound.fails_settle (hw : w.Sound env.toHost config now) {round : Round}
    (hr : w.store.round id = some round) (h : Fails (settle id) env w.frame (.error e)) :
    round.status ≠ .Cleared ∧ e = round.status.settleError := by
  have hview : w.view (.v1 id) = some (round.view config (w.store.state id)) := hw.view_round hr
  cases hs : round.status with
  | Cleared =>
    obtain ⟨-, winner, hwinner, -⟩ := (hw.views _ _ hview).cleared hs
    replace hwinner : round.winner = some winner := hwinner
    simp [settle, getConfig, getRound, hw.configured, hr, hs, hwinner] at h
    rcases h with h | ⟨_, f, -, h⟩
    · exact absurd h (silent_settleBidders _ _ _ _ _ _ _ _ _)
    · exact absurd h (silent_setRound _ _ _ _ _)
  | _ =>
    simp [settle, getConfig, getRound, hw.configured, hr, hs] at h
    exact ⟨by simp, h⟩

theorem World.Sound.fails_settleV2 (hw : w.Sound env.toHost config now) {round : RoundV2}
    (hr : w.store.roundV2 id = some round) (h : Fails (settleV2 id) env w.frame (.error e)) :
    round.status ≠ .Cleared ∧ e = round.status.settleError := by
  have hview : w.view (.v2 id) = some (round.view (w.store.submissionV2 id)) :=
    World.view_roundV2 hr
  cases hs : round.status with
  | Cleared =>
    obtain ⟨hpayment, winner, hwinner, -⟩ := (hw.views _ _ hview).cleared hs
    have hmode : round.mode = .Auction := (hw.consistent id round hr).mode.mpr hpayment
    have hsettlement := (hw.consistent id round hr).settlement
    rw [hmode] at hsettlement
    obtain ⟨payment, hp⟩ := Option.isSome_iff_exists.mp hsettlement.1
    obtain ⟨lot, hl⟩ := Option.isSome_iff_exists.mp hsettlement.2.1
    replace hwinner : round.winner = some winner := hwinner
    simp [settleV2, getConfig, getRoundV2, hw.configured, hr, hs, hmode, hwinner, hp, hl] at h
    rcases h with h | ⟨_, f, -, h | ⟨_, g, -, h⟩⟩
    · exact absurd h (silent_settleBidders _ _ _ _ _ _ _ _ _)
    · exact absurd h (silent_transfer _ _ _ _ _ _ _)
    · exact absurd h (silent_setRoundV2 _ _ _ _ _)
  | _ =>
    simp [settleV2, getConfig, getRoundV2, hw.configured, hr, hs] at h
    exact ⟨by simp, h⟩

theorem fails_openReveal {round : Round} (hc : w.store.config = some config)
    (hr : w.store.round id = some round) {signature : BytesN 96}
    (h : Fails (openReveal id signature) env w.frame (.error e)) :
    e ∈ RoundKey.openErrors (.v1 id) round.status := by
  cases hs : round.status with
  | Open =>
    simp [openReveal, getConfig, getRound, hc, hr, hs] at h
    rcases h with ⟨-, rfl⟩ | ⟨-, h | ⟨-, rfl⟩ | ⟨-, h | h⟩⟩
    · simp [RoundKey.openErrors]
    · exact absurd h (silent_verifyRound _ _ _ _ _ _)
    · simp [RoundKey.openErrors]
    · exact absurd h (silent_extendRoundSeals _ _ _ _ _ _)
    · exact absurd h (silent_setRound _ _ _ _ _)
  | _ =>
    simp [openReveal, getConfig, getRound, hc, hr, hs] at h
    simp [RoundKey.openErrors, h]

theorem fails_checkOpening {round : RoundV2} (hr : w.store.roundV2 id = some round)
    (hpoliced : w.store.Policed id)
    (h : Fails (checkOpening config id round) env w.frame (.error e)) :
    e = .CommitNotClosed ∨ e = .RevealWindowClosed := by
  unfold checkOpening at h
  simp only [fails_bind, fails_read, yields_read, false_or] at h
  obtain ⟨_, _, ⟨rfl, rfl⟩, h⟩ := h
  split at h
  · next hversion =>
    obtain ⟨state, hstate⟩ := Option.isSome_iff_exists.mp (hpoliced round hr hversion)
    simp [getRevealStateV3, hstate] at h
    rcases h with ⟨-, he⟩ | ⟨-, ⟨-, he⟩ | ⟨-, h⟩⟩
    · exact Or.inl he
    · exact Or.inr he
    · exact absurd h (silent_requireOpener _ _ _ _ _)
  · exact absurd h (silent_pure _ _ _ _)

theorem fails_openRevealV2 {round : RoundV2} (hc : w.store.config = some config)
    (hr : w.store.roundV2 id = some round) (hpoliced : w.store.Policed id)
    {signature : BytesN 96} (h : Fails (openRevealV2 id signature) env w.frame (.error e)) :
    e ∈ RoundKey.openErrors (.v2 id) round.status := by
  cases hs : round.status with
  | Open =>
    simp [openRevealV2, getConfig, getRoundV2, hc, hr, hs] at h
    rcases h with ⟨-, rfl⟩ | ⟨-, h | ⟨state, f, -, h | ⟨-, rfl⟩ | ⟨-, h | ⟨_, g, -, h | h⟩⟩⟩⟩
    · simp [RoundKey.openErrors]
    · rcases fails_checkOpening hr hpoliced h with rfl | rfl <;> simp [RoundKey.openErrors]
    · exact absurd h (silent_verifyRound _ _ _ _ _ _)
    · simp [RoundKey.openErrors]
    · exact absurd h (silent_storeOpening _ _ _ _ _)
    · exact absurd h (silent_extendRoundSealsV2 _ _ _ _ _ _)
    · exact absurd h (silent_setRoundV2 _ _ _ _ _)
  | _ =>
    simp [openRevealV2, getConfig, getRoundV2, hc, hr, hs] at h
    simp [RoundKey.openErrors, h]

end

/-! ## The calls on a round of either generation -/

section

variable {host : Host} {config : GlobalConfig} {tx : Transaction} {w : World} {key : RoundKey}
  {r : SealedRound} {now : Nat} {e : Error}

/-- A body that fails makes the call fail, and conversely. -/
theorem fails_of_invoke {α : Type} {call : Call} {x : Contract α} {k : α → Value}
    (hbody : call.body = k <$> x) {f : Failure Error} (h : invoke host tx call w = .error f) :
    Fails x ⟨host, tx⟩ w.frame f := by
  have hfails := invoke_eq_error.mp h
  rwa [hbody, fails_map] at hfails

theorem World.Sound.refused_clear (hw : w.Sound host config now) (hr : w.view key = some r)
    (h : invoke host tx key.clear w = .error (.error e)) : e = r.status.clearError := by
  cases key with
  | v1 id =>
    obtain ⟨round, hround, rfl⟩ := hw.of_view_v1 hr
    exact fails_clear hround (fails_of_invoke rfl h)
  | v2 id =>
    obtain ⟨round, hround, rfl⟩ := World.of_view_v2 hr
    exact fails_clearV2 hround (fails_of_invoke rfl h)

theorem World.Sound.refused_settle (hw : w.Sound host config now) (hr : w.view key = some r)
    (h : invoke host tx key.settle w = .error (.error e)) :
    r.status ≠ .Cleared ∧ e = r.status.settleError := by
  cases key with
  | v1 id =>
    obtain ⟨round, hround, rfl⟩ := hw.of_view_v1 hr
    exact (hw.env tx).fails_settle hround (fails_of_invoke rfl h)
  | v2 id =>
    obtain ⟨round, hround, rfl⟩ := World.of_view_v2 hr
    exact (hw.env tx).fails_settleV2 hround (fails_of_invoke rfl h)

theorem World.Sound.refused_void (hw : w.Sound host config now) (hr : w.view key = some r)
    (h : invoke host tx key.void w = .error (.error e)) : e = r.status.voidError := by
  cases key with
  | v1 id =>
    obtain ⟨round, hround, rfl⟩ := hw.of_view_v1 hr
    exact fails_void hround (fails_of_invoke rfl h)
  | v2 id =>
    obtain ⟨round, hround, rfl⟩ := World.of_view_v2 hr
    exact fails_voidV2 hround (fails_of_invoke rfl h)

theorem World.Sound.refused_opening (hw : w.Sound host config now)
    (hpoliced : w.store.Policed key.id) (hr : w.view key = some r) {signature : BytesN 96}
    (h : invoke host tx (key.openReveal signature) w = .error (.error e)) :
    e ∈ key.openErrors r.status := by
  cases key with
  | v1 id =>
    obtain ⟨round, hround, rfl⟩ := hw.of_view_v1 hr
    exact fails_openReveal hw.configured hround (fails_of_invoke rfl h)
  | v2 id =>
    obtain ⟨round, hround, rfl⟩ := World.of_view_v2 hr
    exact fails_openRevealV2 hw.configured hround hpoliced (fails_of_invoke rfl h)

end

end SubRosa
