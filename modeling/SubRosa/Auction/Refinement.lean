import SubRosa.Auction.SecondGeneration
import SubRosa.Auction.Accounts
import SubRosa.Contract.Calls

/-!
# Every run is a run of sealed rounds

A successful call makes one step of the sealed round under its key, or creates
it, and leaves every other round alone; whatever else happens on the chain
leaves all rounds alone. So the invariant of a round and its accounts hold
along every run.
-/

namespace SubRosa

open MachineInt Invocation TokenLedger Runs

/-- What a call asks of the round it works on; a creation asks for a new one. -/
def Call.action : Call → Option Action
  | .createRound _ => none
  | .createRoundV2 _ _ => none
  | .createPartnerRoundV2 _ _ => none
  | .createRoundV3 _ _ => none
  | .commit _ bidder commitment _ escrow _ => some (.commit bidder commitment escrow.toInt)
  | .commitV2 _ bidder commitment _ escrow _ => some (.commit bidder commitment escrow.toInt)
  | .openReveal _ _ => some .opening
  | .openRevealV2 _ _ => some .opening
  | .reveal _ bidder value nonce => some (.reveal bidder (bidPreimage value nonce))
  | .revealV2 _ bidder envelope => some (.reveal bidder envelope)
  | .clear _ => some .clear
  | .clearV2 _ => some .clear
  | .settle _ => some .settle
  | .settleV2 _ => some .settle
  | .void _ => some .void
  | .voidV2 _ => some .void

section

variable {host : Host} {config : GlobalConfig}

/-- **Refinement of one call.** -/
theorem invoke_refines {tx : Transaction} {call : Call} {w : World} {o : Outcome}
    (hw : w.Sound host config tx.timestamp.toNat) (hself : tx.auths host.currentContract = false)
    (h : invoke host tx call w = .ok o) :
    ∃ key, call.key o.value = some key ∧
      match call.action with
      | some action => w.Advances ⟨host, tx⟩ key action ⟨o.world, o.transfers⟩
      | none => w.Creates ⟨host, tx⟩ config key ⟨o.world, o.transfers⟩ := by
  have hy := invoke_eq_ok.mp h
  obtain ⟨value, w', ts⟩ := o
  cases call <;> obtain ⟨a, hy, rfl⟩ := (yields_map ..).mp hy <;> refine ⟨_, rfl, ?_⟩
  case createRound args => exact creates_createRound hw hself hy
  case createRoundV2 args settlement => exact creates_createRoundV2Impl hw hself hy
  case createPartnerRoundV2 args policy => exact creates_createRoundV2Impl hw hself hy
  case createRoundV3 args policy => exact creates_createRoundV3 hw hself hy
  case commit id b commitment ciphertext escrow blob => exact advances_commit hw hself hy
  case commitV2 id b commitment ciphertext escrow blob => exact advances_commitV2 hw hself hy
  case openReveal id signature => exact advances_openReveal hw hy
  case openRevealV2 id signature => exact advances_openRevealV2 hw hy
  case reveal id b value nonce => exact advances_reveal hw hy
  case revealV2 id b envelope => exact advances_revealV2 hw hy
  case clear id => exact advances_clear hw hy
  case clearV2 id => exact advances_clearV2 hw hy
  case settle id => exact advances_settle hw hy
  case settleV2 id => exact advances_settleV2 hw hy
  case void id => exact advances_void hw hy
  case voidV2 id => exact advances_voidV2 hw hy

/-! ## Every state of a run is sound -/

/-- The invariant of a chain. -/
structure Chain.Sound (host : Host) (config : GlobalConfig) (c : Chain) : Prop where
  world : c.world.Sound host config c.now.toNat
  funds : ∀ a x, 0 ≤ c.world.balances a x

theorem Deployed.chain_sound {c : Chain} (h : Deployed config c) : c.Sound host config :=
  ⟨h.sound, h.2⟩

theorem World.loseRevealState_view (w : World) (id : UInt64) (key : RoundKey) :
    (w.loseRevealState id).view key = w.view key := by
  cases key <;> rfl

theorem World.Sound.loseRevealState {w : World} {now : Nat} (h : w.Sound host config now)
    (id : UInt64) : (w.loseRevealState id).Sound host config now where
  configured := h.configured
  views key r hr := h.views key r (by rwa [w.loseRevealState_view] at hr)
  consistent := h.consistent
  distinct := h.distinct
  unused j hj := by
    have hu := h.unused j hj
    refine { hu with revealV3 := ?_ }
    by_cases hid : j = id
    · subst hid
      simp [World.loseRevealState]
    · simp [World.loseRevealState, hid, hu.revealV3]

/-- A successful call leaves the world sound. -/
theorem invoke_sound {tx : Transaction} {call : Call} {w : World} {o : Outcome}
    (hw : w.Sound host config tx.timestamp.toNat) (hself : tx.auths host.currentContract = false)
    (h : invoke host tx call w = .ok o) : o.world.Sound host config tx.timestamp.toNat := by
  obtain ⟨key, -, href⟩ := invoke_refines hw hself h
  split at href
  · obtain ⟨r, r', hr, hr', hstep⟩ := href.step
    exact hw.evolves hr hr' (hstep.sound (hw.views key r hr)) href.evolves
  · obtain ⟨r, hr, hcreated, -⟩ := href.created
    exact hw.grows hr hcreated.sound href.grows

/-- The transfers of a successful call all went through. -/
theorem invoke_paid {tx : Transaction} {call : Call} {w : World} {o : Outcome}
    (hw : w.Sound host config tx.timestamp.toNat) (hself : tx.auths host.currentContract = false)
    (h : invoke host tx call w = .ok o) :
    transferAll? tx.accepts w.balances o.transfers = some o.world.balances := by
  obtain ⟨key, -, href⟩ := invoke_refines hw hself h
  split at href
  · exact href.paid
  · exact href.paid

theorem Step.sound {c c' : Chain} {e : Event} (h : Step host c e c') (hs : c.Sound host config) :
    c'.Sound host config := by
  cases h with
  | called hnow hself hcall =>
    have hw := hs.world.later (UInt64.le_iff_toNat_le.mp hnow)
    exact ⟨invoke_sound hw hself hcall, transferAll?_nonneg (invoke_paid hw hself hcall) hs.funds⟩
  | failed hnow _ _ => exact ⟨hs.world.later (UInt64.le_iff_toNat_le.mp hnow), hs.funds⟩
  | outside hsource htransfer =>
    obtain ⟨⟨-, h0, hle⟩, rfl⟩ := transfer?_eq_some.mp htransfer
    exact ⟨{ hs.world with }, apply_nonneg hs.funds h0 hle⟩
  | revealStateLost id => exact ⟨hs.world.loseRevealState id, hs.funds⟩

/-- **State invariant of a run.** -/
theorem Run.sound {c c' : Chain} {events : List Event} (h : Run host c events c')
    (hs : c.Sound host config) : c'.Sound host config :=
  Runs.Run.invariant (I := Chain.Sound host config)
    (fun _ _ _ hd hstep => Step.sound hstep hd) h hs

theorem Step.now_le {c c' : Chain} {e : Event} (h : Step host c e c') : c.now ≤ c'.now := by
  cases h with
  | called hnow => exact hnow
  | failed hnow => exact hnow
  | outside => exact UInt64.le_refl _
  | revealStateLost => exact UInt64.le_refl _

/-! ## What a step does to the round under one key -/

/-- What an event asked of the round under a key; creations ask for a new one. -/
def Event.actionOn (key : RoundKey) : Event → Option Action
  | .called _ call value _ => if call.key value = some key then call.action else none
  | _ => none

/-- The round under a key before and after one event, with the transfers the
event made on its behalf. -/
inductive Moves (host : Host) (config : GlobalConfig) (key : RoundKey) (t : Nat) :
    Event → Option SealedRound → List Transfer → Option SealedRound → Prop
  | idle (e : Event) (o : Option SealedRound) :
      e.actionOn key = none → Moves host config key t e o [] o
  | created {tx : Transaction} {call : Call} {value : Value} {r : SealedRound} :
      tx.timestamp.toNat = t → call.key value = some key → call.action = none →
      Created host config t r →
      Moves host config key t
        (.called tx call value (r.lotFrom host.currentContract r.terms.operator)) none
        (r.lotFrom host.currentContract r.terms.operator) (some r)
  | stepped {tx : Transaction} {call : Call} {value : Value} {action : Action}
      {r r' : SealedRound} {ts : List Transfer} :
      tx.timestamp.toNat = t → call.key value = some key → call.action = some action →
      Transition host t r action ts r' →
        Moves host config key t (.called tx call value ts) (some r) ts (some r')

theorem Step.moves {c c' : Chain} {e : Event} (h : Step host c e c') (hs : c.Sound host config)
    (key : RoundKey) :
    Moves host config key c'.now.toNat e (c.world.view key) (e.movedFor key)
    (c'.world.view key) := by
  cases h with
  | @called tx call o hnow hself hcall =>
    have hw := hs.world.later (UInt64.le_iff_toNat_le.mp hnow)
    obtain ⟨key', hkey, href⟩ := invoke_refines hw hself hcall
    by_cases hk : key' = key
    · subst hk
      have hmoved : (Event.called tx call o.value o.transfers).movedFor key' = o.transfers := by
        rw [Event.movedFor, if_pos hkey]
      rw [hmoved]
      cases haction : call.action with
      | none =>
        rw [haction] at href
        obtain ⟨r, hr, hcreated, htransfers⟩ := href.created
        have htransfers : o.transfers = r.lotFrom host.currentContract r.terms.operator :=
          htransfers
        rw [(hw.fresh href.grows).1, htransfers]
        exact hr ▸ Moves.created rfl hkey haction hcreated
      | some action =>
        rw [haction] at href
        obtain ⟨r, r', hr, hr', hstep⟩ := href.step
        rw [hr]
        exact hr' ▸ Moves.stepped rfl hkey haction hstep
    · have hne : call.key o.value ≠ some key := by
        rw [hkey, ne_eq, Option.some_inj]
        exact hk
      have hmoved : (Event.called tx call o.value o.transfers).movedFor key = [] := by
        rw [Event.movedFor, if_neg hne]
      have hview : o.world.view key = c.world.view key := by
        split at href
        · exact href.evolves.view (Ne.symm hk)
        · exact href.grows.view (Ne.symm hk)
      rw [hmoved]
      show Moves host config _ _ _ _ [] (o.world.view key)
      rw [hview]
      exact Moves.idle _ _ (by rw [Event.actionOn, if_neg hne])
  | failed => exact Moves.idle _ _ rfl
  | outside =>
    cases key <;> exact Moves.idle _ _ rfl
  | revealStateLost id =>
    show Moves host config _ _ _ _ [] ((c.world.loseRevealState id).view key)
    rw [World.loseRevealState_view]
    exact Moves.idle _ _ rfl

/-! ## What never changes -/

theorem Transition.terms {t : Nat} {r r' : SealedRound} {action : Action} {ts : List Transfer}
    (h : Transition host t r action ts r') : r'.terms = r.terms := by
  have hvoided : r.voided.terms = r.terms := by
    unfold SealedRound.voided
    split <;> rfl
  cases h with
  | clearVoid => exact hvoided
  | void => exact hvoided
  | commit => rfl
  | opening => rfl
  | reveal => rfl
  | clear => rfl
  | finalize => rfl
  | settle => rfl

/-- A round stays under its key and keeps its terms. -/
theorem Run.terms {c c' : Chain} {events : List Event} (h : Run host c events c')
    (hs : c.Sound host config) {key : RoundKey} {r : SealedRound}
    (hr : c.world.view key = some r) :
    ∃ r', c'.world.view key = some r' ∧ r'.terms = r.terms := by
  refine Runs.Run.invariant_of (J := Chain.Sound host config)
    (I := fun d => ∃ q, d.world.view key = some q ∧ q.terms = r.terms)
    (fun _ _ _ hc hstep => Step.sound hstep hc) (fun d e d' hd hold hstep => ?_) h hs ⟨r, hr, rfl⟩
  obtain ⟨q, hq, hterms⟩ := hold
  have hmoves := hstep.moves hd key
  rw [hq] at hmoves
  generalize d'.world.view key = o at hmoves
  generalize e.movedFor key = ts at hmoves
  cases hmoves with
  | idle => exact ⟨q, rfl, hterms⟩
  | stepped _ _ _ htrans => exact ⟨_, rfl, htrans.terms.trans hterms⟩

/-! ## Accounts of a run -/

/-- The net effect of a round so far, nothing before it exists. -/
def positionOf (host : Host) (o : Option SealedRound) : List Transfer :=
  (o.map (SealedRound.position host.currentContract)).getD []

theorem Moves.accounts {key : RoundKey} {t : Nat} {e : Event} {o o' : Option SealedRound}
    {ts : List Transfer}
    (h : Moves host config key t e o ts o') (hs : ∀ r, o = some r → r.Sound host config t)
    (a x : Address) :
    net ts a x = net (positionOf host o') a x - net (positionOf host o) a x := by
  cases h with
  | idle => simp
  | @created _ _ _ r _ _ _ hcreated =>
    have hposition : r.position host.currentContract =
        r.lotFrom host.currentContract r.terms.operator := by
      rw [SealedRound.position_of_live _ (Or.inl hcreated.status), SealedRound.custody,
        hcreated.bidders]
      rfl
    simp [positionOf, hposition]
  | stepped _ _ _ hstep => exact hstep.accounts (hs _ rfl) a x

/-- **Accounts of a round along a run.** -/
theorem Run.accounts {c c' : Chain} {events : List Event} (h : Run host c events c')
    (hs : c.Sound host config) (key : RoundKey) (a x : Address) :
    net (roundLedger key events) a x =
      net (positionOf host (c'.world.view key)) a x -
        net (positionOf host (c.world.view key)) a x := by
  have hsum : net (roundLedger key events) a x =
      (events.map fun e => net (e.movedFor key) a x).sum := net_flatMap events _ a x
  have hrun := Runs.Run.accounts (J := Chain.Sound host config)
    (fun _ _ _ hc hstep => Step.sound hstep hc)
    (fun d => net (positionOf host (d.world.view key)) a x) (fun e => net (e.movedFor key) a x)
    (fun d e d' hd hstep => by
      have hmoves := hstep.moves hd key
      have hlater := (hd.world.later (UInt64.le_iff_toNat_le.mp hstep.now_le)).views key
      have haccounts := hmoves.accounts hlater a x
      omega) h hs
  rw [hsum]
  omega

/-- The balance of an account changes by the transfers of a step. -/
theorem Step.balance {c c' : Chain} {e : Event} (h : Step host c e c') (hs : c.Sound host config)
    (a x : Address) : c'.world.balances a x = c.world.balances a x + net e.transfers a x := by
  cases h with
  | called hnow hself hcall =>
    exact transferAll?_balance
      (invoke_paid (hs.world.later (UInt64.le_iff_toNat_le.mp hnow)) hself hcall) a x
  | failed => simp [Event.transfers]
  | @outside t b _ htransfer =>
    obtain ⟨-, rfl⟩ := transfer?_eq_some.mp htransfer
    simp [Event.transfers, TokenLedger.apply]
  | revealStateLost => simp [Event.transfers, World.loseRevealState]

end

end SubRosa
