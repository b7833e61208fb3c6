import SubRosa.Auction.Lifecycle
import SubRosa.Auction.Opening
import SubRosa.Auction.Script

/-!
# The sealed window

Bids are committed before the Drand round of the auction is due and opened
after the commit deadline, along every run and for every generation.
-/

namespace SubRosa

open MachineInt Invocation

/-- The Drand round a creation names. -/
def Call.revealRound : Call → Option UInt64
  | .createRound args => some args.revealRound
  | call => call.creation.map fun creation => creation.args.revealRound

/-- When a call can succeed, given the events before it. -/
def SealedRound.Timely (r : SealedRound) (config : GlobalConfig) (key : RoundKey) (third : Prop)
    (before : List Event) (t : Nat) : Action → Prop
  | .commit .. => t ≤ r.terms.commitDeadline ∧ ∀ e ∈ before, e.actionOn key ≠ some .opening
  | .opening => r.terms.commitDeadline < t ∧
      (third → r.terms.drandTime config ≤ t ∧ t ≤ r.terms.revealDeadline)
  | .reveal .. => t ≤ r.terms.revealDeadline ∧ ∀ e ∈ before, e.actionOn key ≠ some .clear
  | .clear => r.terms.revealDeadline < t
  | _ => True

/-- No signature offered for the round under the key verifies before its Drand
round is due. -/
def DrandOnTime (host : Host) (config : GlobalConfig) (key : RoundKey) (events : List Event) :
    Prop :=
  ∀ tx call value ts, Event.called tx call value ts ∈ events → ∀ round signature,
    call = key.openReveal signature → host.Verifies config round signature →
    exactTimeOfRound config round ≤ tx.timestamp.toNat

section

variable {host : Host} {config : GlobalConfig} {tx : Transaction} {key : RoundKey}
  {r : SealedRound} {c₀ c : Chain} {events : List Event}

/-- The transition behind an event that acted on a round. -/
theorem Step.acted {d : Chain} {e : Event} (h : Step host c e d) (hs : c.Sound host config)
    {action : Action} (haction : e.actionOn key = some action) :
    ∃ q q' ts, c.world.view key = some q ∧ d.world.view key = some q' ∧
      Transition host d.now.toNat q action ts q' := by
  have hmoves := Step.moves h hs key
  generalize c.world.view key = o at hmoves
  generalize d.world.view key = o' at hmoves
  generalize e.movedFor key = ts at hmoves
  cases hmoves with
  | idle _ _ hnone => simp [haction] at hnone
  | created _ _ hnone => simp [Event.actionOn, hnone] at haction
  | stepped _ hkey hact htrans =>
    simp only [Event.actionOn, hkey, hact, if_true, Option.some_inj] at haction
    subst haction
    exact ⟨_, _, _, rfl, rfl, htrans⟩

/-- After an opening a round is not open any more. -/
theorem Run.opened_before (h : Run host c₀ events c) (hs : c₀.Sound host config)
    (hr : c.world.view key = some r) (hopen : r.status = .Open) :
    ∀ e ∈ events, e.actionOn key ≠ some .opening := by
  intro e he haction
  obtain ⟨_, _, a, b, -, hpre, hstep, hpost⟩ := Runs.Run.mem_step h he
  have ha := Run.sound hpre hs
  obtain ⟨q, q', _, -, hq', htrans⟩ := Step.acted hstep ha haction
  have hstatus : q'.status ≠ .Open := by
    cases htrans with
    | opening => nofun
  obtain ⟨p, hp, hnot⟩ := Run.not_open hpost (Step.sound hstep ha) hq' hstatus
  obtain rfl : r = p := Option.some_inj.mp (hr.symm.trans hp)
  exact hnot hopen

/-- After clearing a round is not revealing any more. -/
theorem Run.cleared_before (h : Run host c₀ events c) (hs : c₀.Sound host config)
    (hr : c.world.view key = some r) (hrevealing : r.status = .Revealing) :
    ∀ e ∈ events, e.actionOn key ≠ some .clear := by
  intro e he haction
  obtain ⟨_, _, a, b, -, hpre, hstep, hpost⟩ := Runs.Run.mem_step h he
  have ha := Run.sound hpre hs
  obtain ⟨q, q', _, -, hq', htrans⟩ := Step.acted hstep ha haction
  have hvoided : q.voided.status = .Voided := by
    unfold SealedRound.voided
    split <;> rfl
  have hstatus : q'.status ≠ .Open ∧ q'.status ≠ .Revealing := by
    cases htrans with
    | clear => exact ⟨nofun, nofun⟩
    | clearVoid => simp [hvoided]
    | finalize => exact ⟨nofun, nofun⟩
  obtain ⟨p, hp, hnot⟩ := Run.keeps
    (I := fun q => q.status ≠ .Open ∧ q.status ≠ .Revealing)
    (fun q q' hI hprogress => hprogress.stays (P := fun s => s ≠ .Open ∧ s ≠ .Revealing)
      (fun _ _ _ hs hnext => hnext.closed hs) hI)
    hpost (Step.sound hstep ha) hq' hstatus
  obtain rfl : r = p := Option.some_inj.mp (hr.symm.trans hp)
  exact hnot.2 hrevealing

/-- The version of a stored round never changes. -/
theorem Run.third (h : Run host c₀ events c) (hs : c₀.Sound host config)
    (hr : c₀.world.view key = some r) (hthird : c.world.Third key) : c₀.world.Third key := by
  cases key with
  | v1 id => exact hthird
  | v2 id =>
    obtain ⟨round, hround, -⟩ := World.of_view_v2 hr
    obtain ⟨_, hround', _, _, _, _, rfl⟩ := Run.roundV2 h hs hround
    obtain ⟨_, hsame, hversion⟩ := hthird
    obtain rfl := Option.some_inj.mp (hround'.symm.trans hsame)
    exact ⟨round, hround, hversion⟩

/-- A round that names no Drand time in range is rejected. -/
theorem World.Sound.creation_fits {w : World} {now : Nat} (hw : w.Sound host config now)
    {call : Call} {o : Outcome} (h : invoke host tx call w = .ok o) {round : UInt64}
    (hround : call.revealRound = some round) : exactTimeOfRound config round < 2 ^ 64 := by
  have hfits : ∀ {deadline : UInt64}, round ≠ 0 → timeOfRound config round < deadline →
      exactTimeOfRound config round < 2 ^ 64 := by
    intro deadline hne hlt
    have := timeOfRound_exact hne hlt
    have := (timeOfRound config round).toNat_lt
    omega
  cases hcreation : call.creation with
  | some creation =>
    obtain ⟨id, -, hwrote⟩ := hw.creation_writes h hcreation
    have hround : call.creation.map (fun creation => creation.args.revealRound) = some round := by
      cases call with
      | createRound => cases hcreation
      | _ => exact hround
    rw [hcreation] at hround
    obtain rfl := Option.some_inj.mp hround
    exact hfits hwrote.accepted.revealRound hwrote.accepted.afterDrand
  | none =>
    cases call <;> simp [Call.revealRound, Call.creation] at hround hcreation
    case createRound args =>
      subst hround
      obtain ⟨id, hy, -⟩ := (yields_map ..).mp (invoke_eq_ok.mp h)
      obtain ⟨-, hne, -, -, hlt, -⟩ := (yields_createRound (hw.env tx).configured args _).mp hy
      exact hfits hne hlt

/-- A round is being revealed only once its Drand round is due. -/
theorem Run.revealing_due (hd : Deployed config c₀) (h : Run host c₀ events c)
    (hdrand : DrandOnTime host config key events) (hr : c.world.view key = some r)
    (hst : r.status ≠ .Open) (hst' : r.status ≠ .Voided) :
    r.terms.drandTime config ≤ c.now.toNat := by
  induction h generalizing r with
  | nil => cases key <;> simp [World.view, hd.1, Store.empty] at hr
  | @snoc events d e d' hrun hstep ih =>
    have hs := Run.sound hrun hd.chain_sound
    have hle := UInt64.le_iff_toNat_le.mp (Step.now_le hstep)
    have hevents : DrandOnTime host config key events := fun tx call value ts hmem =>
      hdrand tx call value ts (List.mem_append_left _ hmem)
    have hmoves := Step.moves hstep hs key
    rw [hr] at hmoves
    generalize ho : d.world.view key = o at hmoves
    generalize e.movedFor key = ts at hmoves
    cases hmoves with
    | idle =>
      have := ih hevents ho hst hst'
      omega
    | created _ _ _ hcreated => exact absurd hcreated.status hst
    | @stepped tx call value action q _ ts htime hkey haction htrans =>
      have hearlier : q.status ≠ .Open → q.status ≠ .Voided →
          r.terms.drandTime config ≤ d'.now.toNat := by
        intro h₁ h₂
        have := ih hevents ho h₁ h₂
        rw [htrans.terms]
        omega
      cases htrans with
      | commit _ _ _ hopen => exact absurd hopen hst
      | opening =>
        -- the signature that opened the round verified
        obtain ⟨hnow, hself, -, o, hcall, rfl, -, -⟩ := hstep.call
        have hw := hs.world.later (UInt64.le_iff_toNat_le.mp hnow)
        obtain ⟨round, signature, hcalled, hround, hsig, -⟩ :=
          hw.open_checked hself hcall hkey haction
        obtain ⟨round', hround', hterms⟩ := hw.drandRound_terms ho
        obtain rfl : round = round' := Option.some_inj.mp (hround.symm.trans hround')
        have hdue := hdrand tx call _ _ (List.mem_append_right _ (List.mem_singleton_self _))
          round signature hcalled hsig
        show q.terms.drandTime config ≤ _
        rw [hterms, ← htime]
        exact hdue
      | reveal _ _ _ _ hq => exact hearlier (by simp [hq]) (by simp [hq])
      | clear _ _ hq => exact hearlier (by simp [hq]) (by simp [hq])
      | clearVoid hq => exact hearlier (by simp [hq]) (by simp [hq])
      | finalize hq => exact hearlier (by simp [hq]) (by simp [hq])
      | settle _ hq => exact hearlier (by simp [hq]) (by simp [hq])
      | void =>
        refine absurd ?_ hst'
        unfold SealedRound.voided
        split <;> rfl

/-- **The sealed window.** -/
theorem sealed_window (hd : Deployed config c₀) (h : Run host c₀ events c) :
    (∀ r, c.world.view key = some r →
      (r.terms.commitDeadline : Int) < r.terms.drandTime config ∧
        r.terms.drandTime config < r.terms.revealDeadline) ∧
    (∀ before tx call value ts after r action,
      events = before ++ .called tx call value ts :: after → call.key value = some key →
      call.action = some action → c.world.view key = some r →
      r.Timely config key (c.world.Third key) before tx.timestamp.toNat action) ∧
    (∀ tx call round, call.revealRound = some round → 2 ^ 64 ≤ exactTimeOfRound config round →
      ∀ o, invoke host tx call c.world ≠ .ok o) ∧
    (DrandOnTime host config key events → ∀ r, c.world.view key = some r →
      r.status = .Revealing → r.terms.drandTime config ≤ c.now.toNat) := by
  have hs := h.sound hd.chain_sound
  refine ⟨fun r hr => ⟨(hs.world.views key r hr).beforeDrand, (hs.world.views key r hr).afterDrand⟩,
    ?_, ?_, ?_⟩
  · rintro before tx call value ts after r action rfl hkey haction hr
    obtain ⟨u, v, hpre, hstep, hpost⟩ := Runs.Run.middle h
    have hu := Run.sound hpre hd.chain_sound
    obtain ⟨hnow, hself, htime, o, hcall, rfl, -, -⟩ := hstep.call
    have hw := hu.world.later (UInt64.le_iff_toNat_le.mp hnow)
    have hacts : (Event.called tx call o.value ts).actionOn key = some action := by
      simp [Event.actionOn, hkey, haction]
    obtain ⟨q, q', ts', hq, hq', htrans⟩ := hstep.acted hu hacts
    obtain ⟨_, hr', hterms⟩ := Run.terms hpost (Step.sound hstep hu) hq'
    obtain rfl := Option.some_inj.mp (hr.symm.trans hr')
    rw [htrans.terms] at hterms
    rw [htime] at htrans
    have hclear : q.terms.revealDeadline < tx.timestamp.toNat →
        r.Timely config key (c.world.Third key) before tx.timestamp.toNat .clear := by
      intro ht
      show r.terms.revealDeadline < tx.timestamp.toNat
      rwa [hterms]
    cases htrans with
    | commit _ _ _ hopen ht =>
      exact ⟨by rw [hterms]; exact ht, Run.opened_before hpre hd.chain_sound hq hopen⟩
    | opening _ ht =>
      refine ⟨by rw [hterms]; exact ht, fun hthird => ?_⟩
      have hthird' := Run.third (Runs.Run.cons hstep hpost) hu hq hthird
      obtain ⟨round, signature, -, hround, -, hopens⟩ := hw.open_checked hself hcall hkey haction
      cases key with
      | v1 id => exact hthird.elim
      | v2 id =>
        obtain ⟨stored, hstored, hversion⟩ := hthird'
        obtain ⟨state, -, hopensAt⟩ := hopens stored hstored rfl hversion
        rw [hterms]
        exact hw.opens_due hq hstored hopensAt
    | reveal _ _ _ _ hst ht =>
      exact ⟨by rw [hterms]; exact ht, Run.cleared_before hpre hd.chain_sound hq hst⟩
    | clear _ _ _ ht => exact hclear ht
    | clearVoid _ ht => exact hclear ht
    | finalize _ ht => exact hclear ht
    | settle => trivial
    | void => trivial
  · intro tx call round hround hlarge o ho
    have := hs.world.creation_fits ho hround
    omega
  · intro hdrand r hr hst
    exact Run.revealing_due hd h hdrand hr (by simp [hst]) (by simp [hst])

/-- The window of the sample auction. -/
theorem sealed_window_sample : ∃ c events r, Run Sample.host Sample.deployed events c ∧
    c.world.view (.v1 1) = some r ∧ r.status = .Revealing ∧
    (r.terms.commitDeadline : Int) < r.terms.drandTime Sample.config ∧
    r.terms.drandTime Sample.config < r.terms.revealDeadline := by
  obtain ⟨c, events, hrun, hvalue⟩ := Chain.exec_reaches Sample.host Sample.deployed Sample.auction
    (fun c _ => (c.world.view (.v1 1)).map SealedRound.status) (some .Revealing)
    (by decide +kernel)
  obtain ⟨r, hr, hst⟩ := Option.map_eq_some_iff.mp hvalue
  exact ⟨c, events, r, hrun, hr, hst,
    (sealed_window Sample.deployed_ok hrun).1 r hr⟩

end

end SubRosa
