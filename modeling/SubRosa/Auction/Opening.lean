import SubRosa.Auction.Chronicle
import SubRosa.Auction.Frame

/-!
# Opening and revealing

When a round opens and a preimage is recorded, as facts about calls that
cannot fail. A round of version 3 opens for everybody once its Drand round and
its fallback are due, as long as the ledger keeps the policy of the round.
-/

namespace SubRosa

open MachineInt Invocation

/-- The Drand round that opens a round. -/
def World.drandRound (w : World) : RoundKey → Option UInt64
  | .v1 id => (w.store.round id).map Round.revealRound
  | .v2 id => (w.store.roundV2 id).map RoundV2.revealRound

/-- The round under the key is of the third version. -/
def World.Third (w : World) : RoundKey → Prop
  | .v1 _ => False
  | .v2 id => ∃ round, w.store.roundV2 id = some round ∧
      round.protocolVersion = revealPolicyVersion

/-- At time `t` the opening of a third-version round needs no authorisation. -/
def World.OpensForAll (config : GlobalConfig) (w : World) (t : UInt64) (key : RoundKey) : Prop :=
  w.Third key →
    (∀ round, w.drandRound key = some round → exactTimeOfRound config round ≤ t.toNat) ∧
    ∀ state fallbackAt, w.store.revealV3 key.id = some state →
      state.policy = .OwnerTriggered fallbackAt → fallbackAt ≤ t

/-- The record of `b` holds the preimage `x`. -/
def World.Recorded (w : World) (b : Address) (x : Bytes) : RoundKey → Prop
  | .v1 id => ∃ state value nonce, w.store.state id b = some state ∧
      state.revealedValue = some value ∧ state.revealedNonce = some nonce ∧
      x = bidPreimage value nonce
  | .v2 id => ∃ state, w.store.submissionV2 id b = some state ∧ state.revealedEnvelope = some x

/-- A call that reveals `x` for `b`. -/
inductive RevealCall : RoundKey → Address → Bytes → Call → Prop
  | v1 (id : UInt64) (b : Address) (value : I128) (nonce : BytesN 32) :
      RevealCall (.v1 id) b (bidPreimage value nonce) (.reveal id b value nonce)
  | v2 (id : UInt64) (b : Address) (envelope : Bytes) :
      RevealCall (.v2 id) b envelope (.revealV2 id b envelope)

/-- A third-version round under this id has its policy. -/
def Store.Policed (s : Store) (id : UInt64) : Prop :=
  ∀ round, s.roundV2 id = some round → round.protocolVersion = revealPolicyVersion →
    (s.revealV3 id).isSome = true

section

variable {host : Host} {config : GlobalConfig} {tx : Transaction} {w : World} {key : RoundKey}
  {r : SealedRound} {now : Nat} {b : Address} {x : Bytes}

/-! ## What is recorded -/

/-- The preimage of a sound round is the recorded one. -/
theorem World.Sound.recorded_iff (hw : w.Sound host config now) (hr : w.view key = some r) :
    w.Recorded b x key ↔ ∃ e, r.entry b = some e ∧ e.opened = some x := by
  cases key with
  | v1 id =>
    obtain ⟨round, -, rfl⟩ := hw.of_view_v1 hr
    constructor
    · rintro ⟨state, value, nonce, hstate, hvalue, hnonce, rfl⟩
      refine ⟨state.entry, by simp [Round.view, hstate], ?_⟩
      simp [BidState.entry, BidState.preimage, hvalue, hnonce]
    · rintro ⟨e, he, hx⟩
      obtain ⟨state, hstate, rfl⟩ := Option.map_eq_some_iff.mp he
      rcases state.recorded ((hw.views _ _ hr).entries b _ he) rfl with
        ⟨-, -, hnone⟩ | ⟨value, nonce, hvalue, hnonce, hpreimage⟩
      · rw [show state.entry.opened = none from hnone] at hx
        cases hx
      · refine ⟨state, value, nonce, hstate, hvalue, hnonce, ?_⟩
        exact Option.some_inj.mp (hx.symm.trans hpreimage)
  | v2 id =>
    obtain ⟨round, -, rfl⟩ := World.of_view_v2 hr
    constructor
    · rintro ⟨state, hstate, hx⟩
      exact ⟨state.entry, by simp [RoundV2.view, hstate], hx⟩
    · rintro ⟨e, he, hx⟩
      obtain ⟨state, hstate, rfl⟩ := Option.map_eq_some_iff.mp he
      exact ⟨state, hstate, hx⟩

/-- A stored round has a Drand round, and the terms say when it is due. -/
theorem World.Sound.drandRound_terms (hw : w.Sound host config now) (hr : w.view key = some r) :
    ∃ round, w.drandRound key = some round ∧
      r.terms.drandTime config = exactTimeOfRound config round := by
  cases key with
  | v1 id =>
    obtain ⟨round, hround, rfl⟩ := hw.of_view_v1 hr
    exact ⟨round.revealRound, by simp [World.drandRound, hround], rfl⟩
  | v2 id =>
    obtain ⟨round, hround, rfl⟩ := World.of_view_v2 hr
    exact ⟨round.revealRound, by simp [World.drandRound, hround], rfl⟩

/-! ## Opening -/

/-- **Opening.** Anybody with a signature opens a round whose time has come. -/
theorem World.Sound.can_open (hw : w.Sound host config now) (hr : w.view key = some r)
    (hs : r.status = .Open) (hfrom : r.terms.commitDeadline < tx.timestamp.toNat)
    (hto : tx.timestamp.toNat ≤ r.terms.revealDeadline) {round : UInt64}
    (hround : w.drandRound key = some round) {signature : BytesN 96}
    (hsig : host.Verifies config round signature)
    (hall : w.OpensForAll config tx.timestamp key) (hpoliced : w.store.Policed key.id) :
    ∃ o, invoke host tx (key.openReveal signature) w = .ok o := by
  cases key with
  | v1 id =>
    obtain ⟨stored, hstored, rfl⟩ := hw.of_view_v1 hr
    obtain rfl : stored.revealRound = round := by simpa [World.drandRound, hstored] using hround
    have hy := (yields_openReveal (hw.env tx) hstored signature _ ⟨⟩).mpr
      ⟨hs, UInt64.lt_iff_toNat_lt.mpr hfrom, hsig, rfl⟩
    exact (invoke_of_yields rfl hy).imp fun _ h => h.1
  | v2 id =>
    obtain ⟨stored, hstored, rfl⟩ := World.of_view_v2 hr
    obtain rfl : stored.revealRound = round := by simpa [World.drandRound, hstored] using hround
    have hsound := hw.views _ _ hr
    have hopens : stored.protocolVersion = revealPolicyVersion →
        ∃ state, w.store.revealV3 id = some state ∧ OpensAt ⟨host, tx⟩ config stored state := by
      intro hversion
      obtain ⟨state, hstate⟩ := Option.isSome_iff_exists.mp (hpoliced stored hstored hversion)
      obtain ⟨hdue, hfallback⟩ := hall ⟨stored, hstored, hversion⟩
      refine ⟨state, hstate, ?_, UInt64.le_iff_toNat_le.mpr hto, ?_⟩
      · exact timeOfRound_le (fun h => hsound.scheduled (UInt64.toNat_inj.mpr h)) (hdue _ hround)
      · intro fallbackAt hpolicy hearly
        have hle := UInt64.le_iff_toNat_le.mp (hfallback state fallbackAt hstate hpolicy)
        have hlt : tx.timestamp.toNat < fallbackAt.toNat := UInt64.lt_iff_toNat_lt.mp hearly
        omega
    have hy := (yields_openRevealV2 (hw.env tx) hstored signature _ ⟨⟩).mpr
      ⟨hs, UInt64.lt_iff_toNat_lt.mpr hfrom, hopens, hsig, rfl⟩
    exact (invoke_of_yields rfl hy).imp fun _ h => h.1

theorem openReveal_on (key : RoundKey) (signature : BytesN 96) (value : Value) :
    (key.openReveal signature).key value = some key ∧
      (key.openReveal signature).action = some .opening := by
  cases key <;> exact ⟨rfl, rfl⟩

/-- What a successful opening checked. -/
theorem World.Sound.open_checked (hw : w.Sound host config tx.timestamp.toNat)
    (hself : tx.auths host.currentContract = false) {call : Call} {o : Outcome}
    (h : invoke host tx call w = .ok o) (hkey : call.key o.value = some key)
    (haction : call.action = some .opening) :
    ∃ round signature, call = key.openReveal signature ∧ w.drandRound key = some round ∧
      host.Verifies config round signature ∧
      ∀ stored, w.store.roundV2 key.id = some stored → key = .v2 key.id →
        stored.protocolVersion = revealPolicyVersion →
        ∃ state, w.store.revealV3 key.id = some state ∧ OpensAt ⟨host, tx⟩ config stored state := by
  obtain ⟨r, -, hr, -⟩ := hw.invoke_step hself h hkey haction
  have hy := invoke_eq_ok.mp h
  obtain ⟨value, w', ts⟩ := o
  cases call <;> simp only [Call.action, Option.some.injEq, reduceCtorEq] at haction
  case openReveal id signature =>
    obtain rfl : key = .v1 id := (Option.some_inj.mp hkey).symm
    obtain ⟨stored, hstored, -⟩ := hw.of_view_v1 hr
    obtain ⟨a, hy, -⟩ := (yields_map ..).mp hy
    obtain ⟨-, -, hsig, -⟩ := (yields_openReveal (hw.env tx) hstored ..).mp hy
    exact ⟨stored.revealRound, signature, rfl, by simp [World.drandRound, hstored], hsig,
      fun _ _ hne => by cases hne⟩
  case openRevealV2 id signature =>
    obtain rfl : key = .v2 id := (Option.some_inj.mp hkey).symm
    obtain ⟨stored, hstored, -⟩ := World.of_view_v2 hr
    obtain ⟨a, hy, -⟩ := (yields_map ..).mp hy
    obtain ⟨-, -, hopens, hsig, -⟩ := (yields_openRevealV2 (hw.env tx) hstored ..).mp hy
    refine ⟨stored.revealRound, signature, rfl, by simp [World.drandRound, hstored], hsig, ?_⟩
    intro other hother _ hversion
    obtain rfl : stored = other := Option.some_inj.mp (hstored.symm.trans hother)
    exact hopens hversion

/-- The opening rules in exact time. -/
theorem World.Sound.opens_due {now : Nat} (hw : w.Sound host config now) {id : UInt64}
    (hr : w.view (.v2 id) = some r) {stored : RoundV2} (hstored : w.store.roundV2 id = some stored)
    {state : RevealStateV3} (hopens : OpensAt ⟨host, tx⟩ config stored state) :
    r.terms.drandTime config ≤ tx.timestamp.toNat ∧
      tx.timestamp.toNat ≤ r.terms.revealDeadline := by
  have hsound := hw.views _ r hr
  obtain ⟨stored', hstored', rfl⟩ := World.of_view_v2 hr
  obtain rfl : stored = stored' := Option.some_inj.mp (hstored.symm.trans hstored')
  have hdrand : exactTimeOfRound config stored.revealRound < stored.revealDeadline.toNat :=
    hsound.afterDrand
  have hdeadline := stored.revealDeadline.toNat_lt
  have hround : stored.revealRound ≠ 0 := fun h => hsound.scheduled (UInt64.toNat_inj.mpr h)
  have heq := timeOfRound_eq hround
    (show exactTimeOfRound config stored.revealRound < 2 ^ 64 by omega)
  have hfrom : (timeOfRound config stored.revealRound).toNat ≤ tx.timestamp.toNat :=
    UInt64.le_iff_toNat_le.mp hopens.afterDrand
  refine ⟨?_, UInt64.le_iff_toNat_le.mp hopens.beforeDeadline⟩
  show exactTimeOfRound config stored.revealRound ≤ tx.timestamp.toNat
  omega

/-! ## Revealing -/

theorem RevealCall.on {call : Call} (h : RevealCall key b x call) (value : Value) :
    call.key value = some key ∧ call.action = some (.reveal b x) := by
  cases h <;> exact ⟨rfl, rfl⟩

/-- **Revealing.** Anybody records an acceptable preimage in the window. -/
theorem World.Sound.can_reveal (hw : w.Sound host config now) (hr : w.view key = some r)
    (hs : r.status = .Revealing) (hto : tx.timestamp.toNat ≤ r.terms.revealDeadline) {e : Entry}
    (he : r.entry b = some e) (hnone : e.opened = none) (hash : host.sha256 x = e.commitment)
    {amount : Option Int} (hreads : r.terms.format.Reads x amount)
    (hadmits : r.terms.Admits e.escrow amount) :
    ∃ call o, RevealCall key b x call ∧ invoke host tx call w = .ok o := by
  cases key with
  | v1 id =>
    obtain ⟨stored, hstored, rfl⟩ := hw.of_view_v1 hr
    obtain ⟨state, hstate, rfl⟩ := Option.map_eq_some_iff.mp he
    obtain ⟨value, nonce, rfl, rfl⟩ := hreads
    obtain ⟨v, hv, hle, -⟩ := hadmits
    obtain rfl := Option.some_inj.mp hv
    have hunrevealed : state.revealedValue = none := by
      rcases state.recorded ((hw.views _ _ hr).entries b _ he) rfl with
        ⟨hvalue, -, -⟩ | ⟨v, n, -, -, hpreimage⟩
      · exact hvalue
      · rw [show state.preimage = none from hnone] at hpreimage
        cases hpreimage
    have hy : Yields (reveal id b value nonce) ⟨host, tx⟩ w.frame ⟨⟩ _ :=
      (yields_reveal hstored b value nonce _ ⟨⟩).mpr
        ⟨hs, UInt64.le_iff_toNat_le.mpr hto, state, hstate, hunrevealed, hash,
          (I128.le_def ..).mpr hle, rfl⟩
    obtain ⟨o, ho, -⟩ : ∃ o, invoke host tx (.reveal id b value nonce) w = .ok o ∧ o.value = _ :=
      invoke_of_yields rfl hy
    exact ⟨_, o, RevealCall.v1 id b value nonce, ho⟩
  | v2 id =>
    obtain ⟨stored, hstored, rfl⟩ := World.of_view_v2 hr
    obtain ⟨state, hstate, rfl⟩ := Option.map_eq_some_iff.mp he
    obtain ⟨payload, hdecode, rfl⟩ := hreads
    have hy := (yields_revealV2 (hw.env tx) hstored b x _ ⟨⟩).mpr
      ⟨hs, UInt64.le_iff_toNat_le.mpr hto, state, payload, hstate, hnone, hash, hdecode,
      hadmits, rfl⟩
    obtain ⟨o, ho, -⟩ : ∃ o, invoke host tx (.revealV2 id b x) w = .ok o ∧ o.value = _ :=
      invoke_of_yields rfl hy
    exact ⟨_, o, RevealCall.v2 id b x, ho⟩

/-! ## Keeping the policy -/

/-- No event of the run lost the opening policy of the round under this id. -/
def PolicyKept (id : UInt64) (events : List Event) : Prop :=
  ∀ e ∈ events, e ≠ .revealStateLost id

theorem PolicyKept.snoc {id : UInt64} {events : List Event} {e : Event}
    (h : PolicyKept id (events ++ [e])) : PolicyKept id events ∧ e ≠ .revealStateLost id :=
  ⟨fun e' he' => h e' (List.mem_append_left _ he'), h e (by simp)⟩

theorem World.Advances.policed {env : Env} {action : Action} {f' : Frame}
    (h : w.Advances env key action f') {id : UInt64} (hp : w.store.Policed id) :
    f'.store.Policed id := by
  intro round hround hversion
  obtain ⟨old, _, _, _, _, hold, rfl⟩ := h.roundV2_back hround
  have hsome := congrArg Option.isSome (h.evolves.opening id)
  rw [Option.isSome_map, Option.isSome_map] at hsome
  rw [hsome]
  exact hp old hold hversion

theorem World.Creates.policed {env : Env} {f' : Frame} (h : w.Creates env config key f')
    {id : UInt64} (hp : w.store.Policed id) : f'.store.Policed id := by
  intro round hround hversion
  by_cases hkey : RoundKey.v2 id = key
  · exact h.grows.opening id round hkey hround hversion
  · rw [h.grows.roundV2 id hkey] at hround
    rw [h.grows.revealV3 id hkey]
    exact hp round hround hversion

theorem Step.policed {c c' : Chain} {e : Event} (h : Step host c e c') (hs : c.Sound host config)
    {id : UInt64} (hkept : e ≠ .revealStateLost id) (hp : c.world.store.Policed id) :
    c'.world.store.Policed id := by
  cases h with
  | called hnow hself hcall =>
    obtain ⟨_, -, href⟩ := invoke_refines (hs.world.later (UInt64.le_iff_toNat_le.mp hnow))
      hself hcall
    split at href
    · exact href.policed hp
    · exact href.policed hp
  | failed => exact hp
  | outside => exact hp
  | revealStateLost j =>
    intro round hround hversion
    have hne : id ≠ j := by
      rintro rfl
      exact hkept rfl
    have hsame : (c.world.loseRevealState j).store.revealV3 id = c.world.store.revealV3 id :=
      Function.update_of_ne hne ..
    show ((c.world.loseRevealState j).store.revealV3 id).isSome = true
    rw [hsame]
    exact hp round hround hversion

/-- **The policy of a third-version round is there as long as none is lost.** -/
theorem Run.policed {c₀ c : Chain} {events : List Event} (hd : Deployed config c₀)
    (h : Run host c₀ events c) {id : UInt64} (hkept : PolicyKept id events) :
    c.world.store.Policed id := by
  induction h with
  | nil =>
    intro round hround
    simp [hd.1, Store.empty] at hround
  | snoc hrun hstep ih =>
    obtain ⟨hevents, he⟩ := hkept.snoc
    exact hstep.policed (Run.sound hrun hd.chain_sound) he (ih hevents)

end

end SubRosa
