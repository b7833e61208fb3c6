import SubRosa.Auction.Opening
import SubRosa.Auction.Rejections
import SubRosa.Auction.Script
import SubRosa.Guarantees.Envelopes
import SubRosa.Guarantees.Isolation
import SubRosa.Keeper.Network

/-!
# The keeper reveals everything that can be revealed

One pass over a round in its reveal window, with every seal still there: no
content of a seal stops it, and it reveals exactly the submissions whose seal
opens to what the contract accepts. The two generations differ in the records
and the encoding only, so the loop is followed once.
-/

namespace SubRosa.Keeper

open JavaScript Invocation MachineInt BigEndian

/-- Whatever others did, they did not call the contract for this round, and the window is open. -/
def Undisturbed (host : Host) (key : RoundKey) (deadline : UInt64) (c d : Scene) : Prop :=
  ∃ events e, Run host c.2 events e ∧
    (∀ tx call value ts, Event.called tx call value ts ∈ events → call.key value ≠ some key) ∧
    d.2.world = e.world ∧ e.now ≤ d.2.now ∧ d.2.now ≤ deadline

/-- The network works for the time of a pass over this round, and its seals can be read. -/
structure Network.Works (n : Network) (key : RoundKey) (deadline : UInt64) : Prop where
  undisturbed : ∀ c d, n.elapses c d → Undisturbed n.host key deadline c d
  present : ∀ c b, ¬ n.expired c key b
  elapse : ∀ c, c.2.now ≤ deadline → ∃ d, n.elapses c d
  published : ∀ c round, ∃ b, n.published c round b
  relays : ∀ c round, ∃ a, n.relays c round a

/-! ## One bidder, in either generation -/

/-- The parts of a pass in which the generations differ: records `S`, decoded seals `X`. -/
structure Generation (S X : Type) where
  readState : Address → Pass S
  isRevealed : S → Bool
  readSeal : Address → Pass (Option Seal)
  decode : Bytes → Except Thrown X
  tryReveal : Address → X → KeeperResult → Pass KeeperResult

def Generation.openSeal {S X : Type} (g : Generation S X) (deps : KeeperDeps)
    (ciphertext : Bytes) : Pass X := do
  let plaintext ← ask (.timelockDecrypt ciphertext)
  lift deps (g.decode plaintext)

def Generation.keep {S X : Type} (g : Generation S X) (deps : KeeperDeps) (result : KeeperResult)
    (bidder : Address) : Pass KeeperResult := do
  let r ← (g.readState bidder).attempt
  match r with
  | .error e => return result.skip bidder s!"state read failed: {errorName e}"
  | .ok state =>
    if g.isRevealed state then return result.skip bidder "already revealed"
    else do
      let stored ← g.readSeal bidder
      match stored with
      | none => return result.skip bidder "seal expired/absent"
      | some payload => do
        let r ← (call (g.openSeal deps payload.ciphertext)).attempt
        match r with
        | .error e => return result.skip bidder s!"decrypt failed: {errorName e}"
        | .ok opened => g.tryReveal bidder opened result

def firstGeneration (roundId : Int) : Generation BidState OpenedBid where
  readState bidder := ask (.getBidState roundId bidder)
  isRevealed state := state.revealedValue.isSome
  readSeal bidder := ask (.getSeal roundId bidder)
  decode := decodeBidPreimage
  tryReveal bidder opened := Keeper.tryReveal roundId bidder opened

def secondGeneration (deps : KeeperDeps) (roundId : Int) :
    Generation SubmissionStateV2 Sdk.PayloadEnvelope where
  readState bidder := ask (.getSubmissionV2 roundId bidder)
  isRevealed state := state.revealedEnvelope.isSome
  readSeal bidder := ask (.getSealV2 roundId bidder)
  decode := Sdk.decodePayloadEnvelope
  tryReveal bidder opened := tryRevealV2 deps roundId bidder opened

theorem keepBidder_eq (deps : KeeperDeps) (roundId : Int) :
    keepBidder deps roundId = (firstGeneration roundId).keep deps := by
  funext result bidder
  refine congrArg (Coroutine.bind (ask (.getBidState roundId bidder)).attempt) (funext fun r => ?_)
  cases r with
  | error e => rfl
  | ok state =>
    refine congrArg (ite (state.revealedValue.isSome = true)
      (pure (result.skip bidder "already revealed"))) ?_
    refine congrArg (Coroutine.bind (ask (.getSeal roundId bidder))) (funext fun stored => ?_)
    cases stored with
    | none => rfl
    | some payload =>
      refine congrArg (Coroutine.bind (call (openBid deps payload.ciphertext)).attempt)
        (funext fun r => ?_)
      cases r with
      | error e => rfl
      | ok opened => rfl

theorem keepSubmission_eq (deps : KeeperDeps) (roundId : Int) :
    keepSubmission deps roundId = (secondGeneration deps roundId).keep deps := by
  funext result bidder
  refine congrArg (Coroutine.bind (ask (.getSubmissionV2 roundId bidder)).attempt)
    (funext fun r => ?_)
  cases r with
  | error e => rfl
  | ok state =>
    refine congrArg (ite (state.revealedEnvelope.isSome = true)
      (pure (result.skip bidder "already revealed"))) ?_
    refine congrArg (Coroutine.bind (ask (.getSealV2 roundId bidder))) (funext fun stored => ?_)
    cases stored with
    | none => rfl
    | some payload =>
      refine congrArg (Coroutine.bind (call (openPayload deps payload.ciphertext)).attempt)
        (funext fun r => ?_)
      cases r with
      | error e => rfl
      | ok opened => rfl

/-- What a pass makes of the record `state` of a bidder whose seal opens to what `Opens` holds. -/
inductive Kept {S : Type} (isRevealed : S → Bool) (Opens : Bytes → Prop)
    (Accepts : S → Bytes → Prop) (Marks : S → Bytes → S → Prop) (state : S) : S → Prop
  | before : isRevealed state = true → Kept isRevealed Opens Accepts Marks state state
  | revealed {x : Bytes} {state' : S} : isRevealed state = false → Opens x → Accepts state x →
      Marks state x state' → Kept isRevealed Opens Accepts Marks state state'
  | refused : isRevealed state = false → (∀ x, Opens x → ¬ Accepts state x) →
      Kept isRevealed Opens Accepts Marks state state

section

variable {S : Type} {isRevealed : S → Bool} {Opens : Bytes → Prop} {Accepts : S → Bytes → Prop}
  {Marks : S → Bytes → S → Prop} {state state' : S}

/-- What is revealed afterwards was revealed before or could be. -/
theorem Kept.revealed_iff (hmarks : ∀ {s x s'}, Marks s x s' → isRevealed s' = true)
    (h : Kept isRevealed Opens Accepts Marks state state') :
    isRevealed state' = true ↔ isRevealed state = true ∨ ∃ x, Opens x ∧ Accepts state x := by
  cases h with
  | before hrevealed => exact ⟨Or.inl, fun _ => hrevealed⟩
  | revealed _ hopens haccepts hmark =>
    exact ⟨fun _ => Or.inr ⟨_, hopens, haccepts⟩, fun _ => hmarks hmark⟩
  | refused hnot hnone =>
    refine ⟨Or.inl, fun h => h.resolve_right ?_⟩
    rintro ⟨x, hopens, haccepts⟩
    exact hnone x hopens haccepts

/-- What is revealed by the pass is what the seal opens to. -/
theorem Kept.marked (h : Kept isRevealed Opens Accepts Marks state state')
    (hnot : isRevealed state = false) (hrevealed : isRevealed state' = true) :
    ∃ x, Opens x ∧ Accepts state x ∧ Marks state x state' := by
  cases h with
  | before hbefore => simp [hnot] at hbefore
  | revealed _ hopens haccepts hmark => exact ⟨_, hopens, haccepts, hmark⟩
  | refused => simp [hnot] at hrevealed

end

/-- How a generation behaves in the scenes `P`, where `rec` are the records of the round. -/
structure Generation.Meets {S X : Type} (g : Generation S X) (n : Network) (P : Scene → Prop)
    (rec : Scene → Address → Option S) (seals : Address → Option Seal)
    (Accepts : S → Bytes → Prop) (Marks : S → Bytes → S → Prop) : Prop where
  elapse : ∀ {c d}, P c → n.elapses c d → P d ∧ rec d = rec c
  readState : ∀ {b c r d state}, P c → rec c b = some state →
    (g.readState b).Ends n.Answers c r d → r = .ok state ∧ P d ∧ rec d = rec c
  readSeal : ∀ {b c r d}, P c → (g.readSeal b).Ends n.Answers c r d →
    r = .ok (seals b) ∧ P d ∧ rec d = rec c
  decodes : ∀ {state x}, Accepts state x → ∃ y, g.decode x = .ok y
  tryReveal : ∀ {b c state x y result r d}, P c → rec c b = some state →
    g.isRevealed state = false → g.decode x = .ok y →
    (g.tryReveal b y result).Ends n.Answers c r d →
    (∃ result', r = .ok result') ∧ P d ∧
      ((Accepts state x ∧ ∃ state', Marks state x state' ∧
        rec d = Function.update (rec c) b (some state')) ∨ (¬ Accepts state x ∧ rec d = rec c))

section

variable {S X : Type} {g : Generation S X} {n : Network} {P : Scene → Prop}
  {rec : Scene → Address → Option S} {seals : Address → Option Seal}
  {Accepts : S → Bytes → Prop} {Marks : S → Bytes → S → Prop} {deps : KeeperDeps} {c d : Scene}
  {b : Address}

/-- The plaintexts behind an optional seal. -/
def Network.Unlocks (n : Network) (sealed : Option Seal) (x : Bytes) : Prop :=
  ∃ payload, sealed = some payload ∧ n.tlock payload.ciphertext = .ok x

/-- Opening a seal returns what it decodes to, or an error when there is nothing. -/
theorem Generation.Meets.opens (hg : g.Meets n P rec seals Accepts Marks) (hP : P c)
    {ciphertext : Bytes} {o : Except Rejection X}
    (hends : (call (g.openSeal deps ciphertext)).Ends n.Answers c o d) :
    P d ∧ rec d = rec c ∧
    ((∃ x y, n.tlock ciphertext = .ok x ∧ g.decode x = .ok y ∧ o = .ok y) ∨
    ∃ error, o = .error error ∧ ∀ x y, n.tlock ciphertext = .ok x → g.decode x ≠ .ok y) := by
  obtain ⟨d', hopen, helapses⟩ := ends_call.mp hends
  rcases Coroutine.ends_bind.mp hopen with ⟨plaintext, d₁, hask, hlift⟩ | ⟨error, rfl, hask⟩
  · obtain ⟨c₁, helapses₁, rfl, htlock⟩ := ends_ask.mp hask
    obtain ⟨hc₁, hsame₁⟩ := hg.elapse hP helapses₁
    obtain ⟨rfl, rfl⟩ := ends_lift.mp hlift
    obtain ⟨hd, hsame⟩ := hg.elapse hc₁ helapses
    refine ⟨hd, hsame.trans hsame₁, ?_⟩
    cases hdecode : g.decode plaintext with
    | ok y => exact Or.inl ⟨plaintext, y, htlock.symm, hdecode, rfl⟩
    | error thrown =>
      refine Or.inr ⟨_, rfl, fun x y hx => ?_⟩
      rw [← htlock] at hx
      cases hx
      simp [hdecode]
  · obtain ⟨c₁, helapses₁, rfl, htlock⟩ := ends_ask.mp hask
    obtain ⟨hc₁, hsame₁⟩ := hg.elapse hP helapses₁
    obtain ⟨hd, hsame⟩ := hg.elapse hc₁ helapses
    refine ⟨hd, hsame.trans hsame₁, Or.inr ⟨error, rfl, fun x y hx => ?_⟩⟩
    rw [← htlock] at hx
    cases hx

/-- One round of the loop. -/
theorem Generation.Meets.keeps (hg : g.Meets n P rec seals Accepts Marks) (hP : P c) {state : S}
    (hstate : rec c b = some state) {result : KeeperResult} {r : Except Rejection KeeperResult}
    (hends : (g.keep deps result b).Ends n.Answers c r d) :
    (∃ result', r = .ok result') ∧ P d ∧
    (∃ state', rec d b = some state' ∧
      Kept g.isRevealed (n.Unlocks (seals b)) Accepts Marks state state') ∧
    ∀ other, other ≠ b → rec d other = rec c other := by
  -- without a reveal the records stay as they are
  have hquiet : ∀ {e : Scene}, P e → rec e = rec c →
      Kept g.isRevealed (n.Unlocks (seals b)) Accepts Marks state state →
      P e ∧ (∃ state', rec e b = some state' ∧
        Kept g.isRevealed (n.Unlocks (seals b)) Accepts Marks state state') ∧
      ∀ other, other ≠ b → rec e other = rec c other :=
    fun he hsame hkept => ⟨he, ⟨state, by rw [hsame, hstate], hkept⟩, fun _ _ => by rw [hsame]⟩
  unfold Generation.keep at hends
  obtain ⟨a, c₁, hread, hends⟩ := Coroutine.ends_attempt_bind.mp hends
  obtain ⟨rfl, hc₁, hsame₁⟩ := hg.readState hP hstate hread
  dsimp only at hends
  split at hends
  · next hrevealed =>
    obtain ⟨rfl, rfl⟩ := Coroutine.ends_pure.mp hends
    exact ⟨⟨_, rfl⟩, hquiet hc₁ hsame₁ (.before hrevealed)⟩
  · next hrevealed =>
    have hnot : g.isRevealed state = false := Bool.eq_false_iff.mpr hrevealed
    rcases Coroutine.ends_bind.mp hends with ⟨stored, c₂, hseal, hends⟩ | ⟨e, -, hseal⟩
    · obtain ⟨hstored, hc₂, hsame₂⟩ := hg.readSeal hc₁ hseal
      obtain rfl := Except.ok.inj hstored
      have hsame₂ := hsame₂.trans hsame₁
      rcases Option.eq_none_or_eq_some (seals b) with hsealed | ⟨payload, hsealed⟩
      · rw [hsealed] at hends
        obtain ⟨rfl, rfl⟩ := Coroutine.ends_pure.mp hends
        refine ⟨⟨_, rfl⟩, hquiet hc₂ hsame₂ (.refused hnot ?_)⟩
        rintro x ⟨payload, hpayload, -⟩ -
        rw [hsealed] at hpayload
        cases hpayload
      · rw [hsealed] at hends
        have hunlocks : ∀ {x}, n.Unlocks (seals b) x → n.tlock payload.ciphertext = .ok x := by
          rintro x ⟨other, hother, hx⟩
          rwa [Option.some_inj.mp (hother.symm.trans hsealed)] at hx
        obtain ⟨o, c₃, hcall, hends⟩ := Coroutine.ends_attempt_bind.mp hends
        obtain ⟨hc₃, hsame₃, hopened⟩ := hg.opens hc₂ hcall
        have hsame₃ := hsame₃.trans hsame₂
        rcases hopened with ⟨x, y, hx, hdecode, rfl⟩ | ⟨error, rfl, hnone⟩
        · obtain ⟨hok, hd, hresult⟩ :=
            hg.tryReveal hc₃ (hsame₃ ▸ hstate) hnot hdecode hends
          rcases hresult with ⟨haccepts, state', hmarks, hupdate⟩ | ⟨hrejects, hsame⟩
          · refine ⟨hok, hd, ⟨state', by rw [hupdate, Function.update_self],
              .revealed hnot ⟨payload, hsealed, hx⟩ haccepts hmarks⟩, fun other hother => ?_⟩
            rw [hupdate, Function.update_of_ne hother, hsame₃]
          · refine ⟨hok, hquiet hd (hsame.trans hsame₃) (.refused hnot fun x' hx' => ?_)⟩
            obtain rfl := Except.ok.inj ((hunlocks hx').symm.trans hx)
            exact hrejects
        · obtain ⟨rfl, rfl⟩ := Coroutine.ends_pure.mp hends
          refine ⟨⟨_, rfl⟩, hquiet hc₃ hsame₃ (.refused hnot fun x hx haccepts => ?_)⟩
          obtain ⟨y, hdecode⟩ := hg.decodes haccepts
          exact hnone x y (hunlocks hx) hdecode
    · cases (hg.readSeal hc₁ hseal).1

/-- **The loop of a pass.** -/
theorem Generation.Meets.loop (hg : g.Meets n P rec seals Accepts Marks) (hP : P c)
    {bidders : List Address} (hnodup : bidders.Nodup)
    (hentered : ∀ b ∈ bidders, ∃ state, rec c b = some state)
    {result : KeeperResult} {r : Except Rejection KeeperResult}
    (hends : (bidders.foldlM (g.keep deps) result).Ends n.Answers c r d) :
    (∃ result', r = .ok result') ∧ P d ∧ ∀ b ∈ bidders, ∀ state, rec c b = some state →
      ∃ state', rec d b = some state' ∧
        Kept g.isRevealed (n.Unlocks (seals b)) Accepts Marks state state' := by
  obtain ⟨result', hr, hd, hdone, -⟩ := Coroutine.ends_foldlM (P := P)
    (T := fun b e => ∃ state, rec c b = some state ∧ rec e b = some state)
    (D := fun b e => ∀ state, rec c b = some state → ∃ state', rec e b = some state' ∧
      Kept g.isRevealed (n.Unlocks (seals b)) Accepts Marks state state')
    (fun result b e r e' he htodo hstep => by
      obtain ⟨state, hstate, hstate'⟩ := htodo
      obtain ⟨⟨result', hr⟩, he', hkept, hothers⟩ := hg.keeps he hstate' hstep
      refine ⟨result', hr, he', fun other hother => ?_, fun other hne => ?_⟩
      · obtain rfl : state = other := Option.some_inj.mp (hstate.symm.trans hother)
        exact hkept
      · rw [hothers other hne]
        exact ⟨fun h => h, fun h => h⟩)
    hnodup hP (fun b hb => (hentered b hb).imp fun _ h => ⟨h, h⟩) hends
  exact ⟨⟨result', hr⟩, hd, hdone⟩

/-- A read that shows `x` and leaves the records alone. -/
def ShowsRecord {α : Type} (n : Network) (P : Scene → Prop) (rec : Scene → Address → Option S)
    (read : Pass α) (x : α) : Prop :=
  ∀ {c d r}, P c → read.Ends n.Answers c r d → r = .ok x ∧ P d ∧ rec d = rec c

/-- **The reveal phase of a pass.** -/
theorem Generation.Meets.phase {α : Type} (hg : g.Meets n P rec seals Accepts Marks) (hP : P c)
    {bidders : List Address} (hnodup : bidders.Nodup)
    (hentered : ∀ b ∈ bidders, ∃ state, rec c b = some state) {readBidders : Pass (List Address)}
    (hbidders : ShowsRecord n P rec readBidders bidders) {readRound : Pass α} {round : α}
    (hround : ShowsRecord n P rec readRound round) {status : α → Status} {result : KeeperResult}
    {r : Except Rejection KeeperResult}
    (hends : Coroutine.Ends n.Answers (do
      let bidders ← readBidders
      let result ← bidders.foldlM (g.keep deps) result
      let round ← readRound
      return result.finish (status round)) c r d) :
    (∃ result', r = .ok result') ∧ ∀ b ∈ bidders, ∀ state, rec c b = some state →
      ∃ state', rec d b = some state' ∧
        Kept g.isRevealed (n.Unlocks (seals b)) Accepts Marks state state' := by
  rcases Coroutine.ends_bind.mp hends with ⟨shown, c₁, hread, hends⟩ | ⟨e, -, hread⟩
  · obtain ⟨hshown, hc₁, hsame₁⟩ := hbidders hP hread
    obtain rfl := Except.ok.inj hshown
    rw [← hsame₁] at hentered ⊢
    rcases Coroutine.ends_bind.mp hends with ⟨result', c₂, hloop, hends⟩ | ⟨e, rfl, hloop⟩
    · obtain ⟨-, hc₂, hkept⟩ := hg.loop hc₁ hnodup hentered hloop
      rcases Coroutine.ends_bind.mp hends with ⟨last, c₃, hread, hends⟩ | ⟨e, -, hread⟩
      · obtain ⟨-, -, hsame₃⟩ := hround hc₂ hread
        obtain ⟨rfl, rfl⟩ := Coroutine.ends_pure.mp hends
        exact ⟨⟨_, rfl⟩, fun b hb state hstate => hsame₃ ▸ hkept b hb state hstate⟩
      · cases (hround hc₂ hread).1
    · obtain ⟨⟨_, hok⟩, -⟩ := hg.loop hc₁ hnodup hentered hloop
      cases hok
  · cases (hbidders hP hread).1

end

/-! ## What others do -/

/-- The records of a round that a pass does not write. -/
def SameRound (w w' : World) : RoundKey → Prop
  | .v1 id => w'.store.round id = w.store.round id ∧ w'.store.sealed id = w.store.sealed id
  | .v2 id => w'.store.roundV2 id = w.store.roundV2 id ∧ w'.store.sealedV2 id = w.store.sealedV2 id

/-- The records of a round that a pass writes. -/
def SameStates (w w' : World) : RoundKey → Prop
  | .v1 id => w'.store.state id = w.store.state id
  | .v2 id => w'.store.submissionV2 id = w.store.submissionV2 id

/-- During a pass the round stays as it was in the world `w`, and so do its seals. -/
structure Window (n : Network) (config : GlobalConfig) (key : RoundKey) (deadline : UInt64)
    (w : World) (c : Scene) : Prop where
  sound : c.2.Sound n.host config
  same : SameRound w c.2.world key
  before : c.2.now ≤ deadline

section

variable {host : Host} {config : GlobalConfig} {c d : Scene} {key : RoundKey} {id : UInt64}
  {deadline : UInt64} {n : Network} {w w' w'' : World} {deps : KeeperDeps}

theorem SameRound.refl (w : World) (key : RoundKey) : SameRound w w key := by
  cases key <;> exact ⟨rfl, rfl⟩

theorem SameRound.trans (h : SameRound w w' key) (h' : SameRound w' w'' key) :
    SameRound w w'' key := by
  cases key <;> exact ⟨h'.1.trans h.1, h'.2.trans h.2⟩

theorem SameRound.sealOf (h : SameRound w w' key) (b : Address) :
    w'.sealOf key b = w.sealOf key b := by
  cases key <;> exact congrArg (fun seals => (seals b).map SealEntry.payload) h.2

theorem SameStates.refl (w : World) (key : RoundKey) : SameStates w w key := by
  cases key <;> exact rfl

theorem SameStates.trans (h : SameStates w w' key) (h' : SameStates w' w'' key) :
    SameStates w w'' key := by
  cases key <;> exact Eq.trans h' h

/-- A step that is no call on the round keeps its records. -/
theorem Step.same_records {x y : Chain} {e : Event} (h : Step host x e y)
    (hs : x.Sound host config)
    (hother : ∀ tx call value ts, e = .called tx call value ts → call.key value ≠ some key) :
    SameRound x.world y.world key ∧ SameStates x.world y.world key := by
  cases h with
  | @called tx call o hnow hself hcall =>
    obtain ⟨other, hkey, -, hkeeps, -⟩ :=
      (hs.world.later (UInt64.le_iff_toNat_le.mp hnow)).invoke_elsewhere hself hcall
    have hne : key ≠ other := by
      rintro rfl
      exact hother _ _ _ _ rfl hkey
    have hsame := hkeeps key hne
    cases key with
    | v1 id => exact ⟨⟨hsame.1, hsame.2.2⟩, hsame.2.1⟩
    | v2 id => exact ⟨⟨hsame.1, hsame.2.2.1⟩, hsame.2.1⟩
  | failed => exact ⟨SameRound.refl .., SameStates.refl ..⟩
  | outside => cases key <;> exact ⟨⟨rfl, rfl⟩, rfl⟩
  | revealStateLost j => cases key <;> exact ⟨⟨rfl, rfl⟩, rfl⟩

theorem Run.same_records {x y : Chain} {events : List Event} (h : Run host x events y)
    (hs : x.Sound host config)
    (hother : ∀ tx call value ts, Event.called tx call value ts ∈ events →
      call.key value ≠ some key) :
    SameRound x.world y.world key ∧ SameStates x.world y.world key := by
  induction h with
  | nil => exact ⟨SameRound.refl .., SameStates.refl ..⟩
  | @snoc events y e z hrun hstep ih =>
    obtain ⟨hround, hstates⟩ :=
      ih fun tx call value ts h => hother tx call value ts (List.mem_append_left _ h)
    have hlast : ∀ tx call value ts, e = .called tx call value ts →
        call.key value ≠ some key := by
      rintro tx call value ts rfl
      exact hother tx call value ts (by simp)
    obtain ⟨hround', hstates'⟩ := Step.same_records hstep (Run.sound hrun hs) hlast
    exact ⟨hround.trans hround', hstates.trans hstates'⟩

/-- While others act the round and its records stay as they were. -/
theorem Window.elapse (h : Window n config key deadline w c) (hn : n.Works key deadline)
    (helapses : n.elapses c d) :
    Window n config key deadline w d ∧ SameStates c.2.world d.2.world key := by
  obtain ⟨events, e, hrun, hother, hworld, hnow, hto⟩ := hn.undisturbed c d helapses
  have he := Run.sound hrun h.sound
  obtain ⟨hround, hstates⟩ := Run.same_records hrun h.sound hother
  rw [← hworld] at hround hstates
  refine ⟨⟨⟨?_, ?_⟩, h.same.trans hround, hto⟩, hstates⟩
  · rw [hworld]
    exact he.world.later (UInt64.le_iff_toNat_le.mp hnow)
  · rw [hworld]
    exact he.funds

theorem Window.answer (h : Window n config key deadline w c) (hn : n.Works key deadline)
    {q : Request} {a : Except Rejection q.Answer} (ha : n.Answers c q a d) :
    ∃ c', Window n config key deadline w c' ∧ SameStates c.2.world c'.2.world key ∧
      n.Serves c' q a d := by
  obtain ⟨c', helapses, hserves⟩ := ha
  obtain ⟨hc', hsame⟩ := h.elapse hn helapses
  exact ⟨c', hc', hsame, hserves⟩

/-- A seal that is still there is shown. -/
theorem Window.shows (h : Window n config key deadline w c) (hn : n.Works key deadline)
    {f : Int → Option RoundKey} {i : Int} (hkey : f i = some key) {b : Address}
    {a : Except Rejection (Option Seal)} (hshows : n.Shows c f i b a) :
    a = .ok (w.sealOf key b) := by
  unfold Network.Shows at hshows
  rw [hkey] at hshows
  rw [← h.same.sealOf]
  exact hshows.resolve_right fun hexpired => hn.present c b hexpired.1

/-- A transaction of the keeper is a step of the chain, or nothing. -/
theorem Network.Submits.run {call : Option Call} {f : Value → α} {a : Except Rejection α}
    (h : n.Submits c call f a d) :
    ∃ events, Run n.host c.2 events d.2 ∧ PolicyKept id events := by
  have hidle : ∃ events, Run n.host c.2 events c.2 ∧ PolicyKept id events :=
    ⟨[], Runs.Run.nil, by simp [PolicyKept]⟩
  cases call with
  | none =>
    obtain ⟨rfl, -⟩ := h
    exact hidle
  | some call =>
    obtain ⟨tx, htime, hself, h⟩ := h
    split at h
    · next o ho =>
      obtain ⟨-, rfl⟩ := h
      have hnow : c.2.now ≤ tx.timestamp := htime ▸ UInt64.le_refl _
      have hstep := Step.called hnow hself ho
      rw [htime] at hstep
      refine ⟨_, Runs.Run.nil.snoc hstep, ?_⟩
      intro e he
      obtain rfl := List.mem_singleton.mp he
      nofun
    · obtain ⟨rfl, -⟩ := h
      exact hidle

theorem Network.Serves.run {q : Request} {a : Except Rejection q.Answer}
    (h : n.Serves c q a d) : ∃ events, Run n.host c.2 events d.2 ∧ PolicyKept id events := by
  have hcalled : ∀ {call : Option Call} {a : Except Rejection Unit},
      n.Submits c call (fun _ => ()) a d →
      ∃ events, Run n.host c.2 events d.2 ∧ PolicyKept id events := Network.Submits.run
  cases q
  case openReveal => exact hcalled h
  case openRevealV2 => exact hcalled h
  case reveal => exact hcalled h
  case revealV2 => exact hcalled h
  case clear => exact Network.Submits.run h
  case clearV2 => exact Network.Submits.run h
  case settle => exact hcalled h
  case settleV2 => exact hcalled h
  case void => exact hcalled h
  case voidV2 => exact hcalled h
  all_goals
    obtain ⟨rfl, -⟩ := h
    exact ⟨[], Runs.Run.nil, by simp [PolicyKept]⟩

theorem reported_isOneOf {r : Rejection} {e : Error} (h : Reports r e) {errors : List Error} :
    isOneOf r errors = true ↔ e ∈ errors := h.errorMatches_iff

end

/-! ## The second generation -/

/-- The envelope fits the submission. -/
def AcceptsEnvelope (host : Host) (mode : RoundMode) (state : SubmissionStateV2) (e : Bytes) :
    Prop :=
  ∃ x, Sdk.decodePayloadEnvelope e = .ok x ∧ host.sha256 e = state.commitment ∧
    (mode = .Auction → ∃ amount, x.amount = some amount ∧ 0 < amount ∧
      amount ≤ state.escrow.toInt)

/-- The record of an accepted envelope. -/
def MarksEnvelope (state : SubmissionStateV2) (e : Bytes) (state' : SubmissionStateV2) : Prop :=
  ∃ amount, state' =
    { state with revealedAmount := amount, revealedEnvelope := some e, valid := true }

section

variable {host : Host} {config : GlobalConfig} {c d : Scene} {id : UInt64} {n : Network}
  {w : World} {deps : KeeperDeps} {round : RoundV2} {b : Address} {state : SubmissionStateV2}

/-- Errors that say nothing wrong about the round. -/
theorem submission_skipped {mode : RoundMode} {e : Bytes} {x : Sdk.PayloadEnvelope}
    (hdecode : Sdk.decodePayloadEnvelope e = .ok x) {error : Error}
    (h : SubmissionError host mode e (some state) error) :
    error ∈ idempotentReveal ∨ error ∈ invalidSubmission := by
  cases h with
  | revealed => exact Or.inl (by decide)
  | mismatch => exact Or.inr (by decide)
  | malformed he =>
    obtain ⟨d, hd⟩ := Sdk.same_strings.mpr ⟨x, hdecode⟩
    rw [hd] at he
    cases he
  | noAmount => exact Or.inr (by decide)
  | notPositive => exact Or.inr (by decide)
  | exceeds => exact Or.inr (by decide)
  | escrowed => exact Or.inr (by decide)

/-- The keeper's reading of an envelope and the contract's agree on what is acceptable. -/
theorem acceptsEnvelope_iff {now : Nat} (hw : w.Sound host config now)
    (hr : w.store.roundV2 id = some round) {e : Bytes} :
    AcceptsEnvelope host round.mode state e ↔ host.sha256 e = state.commitment ∧
      ∃ payload, decodeEnvelope e = .ok payload ∧
        (round.view (w.store.submissionV2 id)).terms.Admits state.escrow.toInt
          (payload.amount.map I128.toInt) := by
  have hmode : round.mode = .Auction ↔ round.paymentAsset.isSome = true :=
    (hw.consistent id round hr).mode
  have hadmits : ∀ amount, (round.view (w.store.submissionV2 id)).terms.Admits state.escrow.toInt
      amount ↔ (round.mode = .Auction → ∃ v, amount = some v ∧ 0 < v ∧ v ≤ state.escrow.toInt) := by
    intro amount
    rw [hmode]
    cases hasset : round.paymentAsset with
    | none => simp [Terms.Admits, RoundV2.view, hasset]
    | some asset => simp [Terms.Admits, RoundV2.view, hasset, and_comm]
  constructor
  · rintro ⟨x, hdecode, hash, hamount⟩
    obtain ⟨payload, hpayload⟩ := Sdk.same_strings.mpr ⟨x, hdecode⟩
    refine ⟨hash, payload, hpayload, (hadmits _).mpr ?_⟩
    rw [← Sdk.same_amount hpayload hdecode]
    exact hamount
  · rintro ⟨hash, payload, hpayload, hadmit⟩
    obtain ⟨x, hdecode⟩ := Sdk.same_strings.mp ⟨payload, hpayload⟩
    refine ⟨x, hdecode, hash, ?_⟩
    rw [Sdk.same_amount hpayload hdecode]
    exact (hadmits _).mp hadmit

/-- The answer to a reveal in the window. -/
theorem Window.revealsV2 (h : Window n config (.v2 id) round.revealDeadline w c)
    (hr : w.store.roundV2 id = some round) (hst : round.status = .Revealing)
    (hstate : c.2.world.store.submissionV2 id b = some state)
    (hnone : state.revealedEnvelope = none) {e : Bytes} {x : Sdk.PayloadEnvelope}
    (hdecode : Sdk.decodePayloadEnvelope e = .ok x) {a : Except Rejection Unit}
    (ha : n.Serves c (.revealV2 id.toNat b e) a d) :
    Window n config (.v2 id) round.revealDeadline w d ∧
    ((AcceptsEnvelope n.host round.mode state e ∧ a = .ok () ∧ ∃ state',
      MarksEnvelope state e state' ∧ d.2.world.store.submissionV2 id =
        Function.update (c.2.world.store.submissionV2 id) b (some state')) ∨
    (¬ AcceptsEnvelope n.host round.mode state e ∧
      d.2.world.store.submissionV2 id = c.2.world.store.submissionV2 id ∧
      ∃ r error, a = .error r ∧ Reports r error ∧
        (error ∈ idempotentReveal ∨ error ∈ invalidSubmission))) := by
  rw [serves_revealV2, call_revealV2] at ha
  obtain ⟨tx, htime, hself, ha⟩ := ha
  have hnow : c.2.now ≤ tx.timestamp := htime ▸ UInt64.le_refl _
  have hw := h.sound.world
  have hstored : c.2.world.store.roundV2 id = some round := h.same.1.trans hr
  have hto : tx.timestamp ≤ round.revealDeadline := by
    rw [htime]
    exact h.before
  have hyields := yields_revealV2 (hw.env tx) hstored b e
  split at ha
  · next o ho =>
    obtain ⟨rfl, rfl⟩ := ha
    have hsound := (Step.called hnow hself ho).sound h.sound
    obtain ⟨_, hy, -⟩ := (yields_map ..).mp (invoke_eq_ok.mp ho)
    obtain ⟨-, -, other, payload, hother, -, hash, hpayload, hadmits, hframe⟩ :=
      (hyields _ _).mp hy
    obtain rfl : state = other := Option.some_inj.mp (hstate.symm.trans hother)
    have hstore := congrArg (fun f : Frame => f.store) hframe
    have haccepts : AcceptsEnvelope n.host round.mode state e :=
      (acceptsEnvelope_iff hw hstored).mpr ⟨hash, payload, hpayload, hadmits⟩
    have hsame : SameRound c.2.world o.world (.v2 id) := by
      refine ⟨?_, ?_⟩ <;> rw [hstore] <;> simp [Store.writeRoundV2, hstored]
    refine ⟨⟨?_, h.same.trans hsame, h.before⟩,
      Or.inl ⟨haccepts, rfl, _, ⟨payload.amount, rfl⟩, ?_⟩⟩
    · rw [← htime]
      exact hsound
    · show o.world.store.submissionV2 id = _
      rw [hstore]
      simp [Store.writeRoundV2]
  · next f hf =>
    obtain ⟨hd, r, rfl, hreports⟩ := ha
    subst hd
    refine ⟨h, Or.inr ⟨fun haccepts => ?_, rfl, ?_⟩⟩
    · obtain ⟨hash, payload, hpayload, hadmits⟩ := (acceptsEnvelope_iff hw hstored).mp haccepts
      have hy := (hyields _ ⟨⟩).mpr
        ⟨hst, hto, state, payload, hstate, hnone, hash, hpayload, hadmits, rfl⟩
      obtain ⟨o, ho, -⟩ := @invoke_of_yields _ _ _ _ (.revealV2 id b e) _ _ rfl _ _ hy
      rw [hf] at ho
      cases ho
    · have hfails : Fails (revealV2 id b e) ⟨n.host, tx⟩ d.2.world.frame f :=
        (fails_map ..).mp (invoke_eq_error.mp hf)
      obtain ⟨error, rfl, hwindow | ⟨-, -, hrecord⟩⟩ := fails_revealV2 hstored b e hfails
      · exact absurd hto (UInt64.not_le.mpr (hwindow.late hst))
      · rw [hstate] at hrecord
        exact ⟨r, error, rfl, hreports error rfl, submission_skipped hdecode hrecord⟩

/-- Whatever the contract says about an envelope, the pass goes on. -/
theorem Window.triesV2 (h : Window n config (.v2 id) round.revealDeadline w c)
    (hn : n.Works (.v2 id) round.revealDeadline) (hr : w.store.roundV2 id = some round)
    (hst : round.status = .Revealing)
    (hstate : c.2.world.store.submissionV2 id b = some state)
    (hnone : state.revealedEnvelope = none) {e : Bytes} {x : Sdk.PayloadEnvelope}
    (hdecode : Sdk.decodePayloadEnvelope e = .ok x) {result : KeeperResult}
    {r : Except Rejection KeeperResult}
    (hends : (tryRevealV2 deps id.toNat b x result).Ends n.Answers c r d) :
    (∃ result', r = .ok result') ∧ Window n config (.v2 id) round.revealDeadline w d ∧
    ((AcceptsEnvelope n.host round.mode state e ∧ ∃ state', MarksEnvelope state e state' ∧
      d.2.world.store.submissionV2 id =
        Function.update (c.2.world.store.submissionV2 id) b (some state')) ∨
    (¬ AcceptsEnvelope n.host round.mode state e ∧
      d.2.world.store.submissionV2 id = c.2.world.store.submissionV2 id)) := by
  have hbytes : sdkRevealV2 deps id.toNat b x = ask (.revealV2 id.toNat b e) := by
    rw [sdkRevealV2, Sdk.encode_decode_envelope.mp hdecode]
    rfl
  unfold tryRevealV2 at hends
  rw [hbytes] at hends
  obtain ⟨a, d', hask, hends⟩ := Coroutine.ends_attempt_bind.mp hends
  obtain ⟨c', hc', hsame, hserves⟩ := h.answer hn (ends_ask.mp hask)
  have hsame : c'.2.world.store.submissionV2 id = c.2.world.store.submissionV2 id := hsame
  obtain ⟨hd', haccept | ⟨hreject, hkept, r', error, rfl, hreports, hskip⟩⟩ :=
    hc'.revealsV2 hr hst (hsame ▸ hstate) hnone hdecode hserves
  · obtain ⟨haccepts, rfl, state', hmarks, hupdate⟩ := haccept
    obtain ⟨rfl, rfl⟩ := Coroutine.ends_pure.mp hends
    exact ⟨⟨_, rfl⟩, hd', Or.inl ⟨haccepts, state', hmarks, by rw [hupdate, hsame]⟩⟩
  · have hkept := hkept.trans hsame
    simp only [reported_isOneOf hreports] at hends
    split at hends
    · obtain ⟨rfl, rfl⟩ := Coroutine.ends_pure.mp hends
      exact ⟨⟨_, rfl⟩, hd', Or.inr ⟨hreject, hkept⟩⟩
    · next hnot =>
      rw [if_pos (hskip.resolve_left hnot)] at hends
      obtain ⟨rfl, rfl⟩ := Coroutine.ends_pure.mp hends
      exact ⟨⟨_, rfl⟩, hd', Or.inr ⟨hreject, hkept⟩⟩

theorem secondGeneration_meets (hn : n.Works (.v2 id) round.revealDeadline)
    (hr : w.store.roundV2 id = some round) (hst : round.status = .Revealing) :
    (secondGeneration deps id.toNat).Meets n (Window n config (.v2 id) round.revealDeadline w)
      (fun c => c.2.world.store.submissionV2 id) (w.sealOf (.v2 id))
      (AcceptsEnvelope n.host round.mode) MarksEnvelope where
  elapse hP helapses := hP.elapse hn helapses
  readState hP hstate hends := by
    obtain ⟨c', hc', hsame, rfl, hread⟩ := hP.answer hn (ends_ask.mp hends)
    rw [n.encoder.u64_toNat, Option.bind_some, show _ = _ from hsame, hstate] at hread
    exact ⟨hread.some, hc', hsame⟩
  readSeal hP hends := by
    obtain ⟨c', hc', hsame, rfl, hshows⟩ := hP.answer hn (ends_ask.mp hends)
    exact ⟨hc'.shows hn (n.encoder.u64_map id RoundKey.v2) hshows, hc', hsame⟩
  decodes haccepts := haccepts.imp fun _ h => h.1
  tryReveal hP hstate hnot hdecode hends :=
    hP.triesV2 hn hr hst hstate (Option.isSome_eq_false_iff.mp hnot |> Option.isNone_iff_eq_none.mp)
      hdecode hends

end

/-! ## The first generation -/

/-- The preimage fits the bid. Its value may be zero or negative. -/
def AcceptsPreimage (host : Host) (state : BidState) (x : Bytes) : Prop :=
  ∃ value nonce, x = bidPreimage value nonce ∧ host.sha256 x = state.commitment ∧
    value ≤ state.escrow

/-- The record of an accepted preimage. -/
def MarksPreimage (state : BidState) (x : Bytes) (state' : BidState) : Prop :=
  ∃ value nonce, x = bidPreimage value nonce ∧ state' =
    { state with
      revealedValue := some value
      revealedNonce := some nonce
      valid := decide (0 < value) }

section

variable {host : Host} {config : GlobalConfig} {c d : Scene} {id : UInt64} {n : Network}
  {w : World} {deps : KeeperDeps} {round : Round} {b : Address} {state : BidState}

/-- The keeper reads exactly the preimages of the contract. -/
theorem decodeBidPreimage_eq_ok {x : Bytes} {y : OpenedBid} :
    decodeBidPreimage x = .ok y ↔
      ∃ (value : I128) (nonce : BytesN 32), x = bidPreimage value nonce ∧
        y = ⟨value.toInt, nonce.val⟩ := by
  unfold decodeBidPreimage
  rw [Sdk.throwIf_bind_eq_ok, not_not]
  constructor
  · rintro ⟨hlength, h⟩
    have hfirst : (x.take Sdk.valueBytes).length = 16 := by
      rw [List.length_take, hlength]
      rfl
    have hsecond : (x.drop Sdk.valueBytes).length = 32 := by
      rw [List.length_drop, hlength]
      rfl
    rw [Sdk.beBytesToI128_ok _ hfirst] at h
    obtain rfl := (Except.ok.inj h).symm
    refine ⟨fromBeBytes _ hfirst, ⟨_, hsecond⟩, ?_, rfl⟩
    rw [bidPreimage, toBeBytes_fromBeBytes]
    exact (List.take_append_drop _ x).symm
  · rintro ⟨value, nonce, rfl, rfl⟩
    have hfirst : (toBeBytes value).length = 16 := length_toBeBytes value
    have htake : (bidPreimage value nonce).take Sdk.valueBytes = toBeBytes value :=
      List.take_left' hfirst
    have hdrop : (bidPreimage value nonce).drop Sdk.valueBytes = nonce.val :=
      List.drop_left' hfirst
    refine ⟨?_, ?_⟩
    · rw [bidPreimage, List.length_append, hfirst, nonce.property]
      rfl
    · rw [htake, hdrop, Sdk.beBytesToI128_ok _ hfirst, toInt_fromBeBytes, signed_toBeBytes]
      rfl

theorem bid_skipped {value : I128} {nonce : BytesN 32} {error : Error}
    (h : BidError host value nonce (some state) error) :
    error ∈ idempotentReveal ∨ error ∈ invalidSubmission := by
  cases h with
  | revealed => exact Or.inl (by decide)
  | mismatch => exact Or.inr (by decide)
  | exceeds => exact Or.inr (by decide)

theorem Window.reveals (h : Window n config (.v1 id) round.revealDeadline w c)
    (hr : w.store.round id = some round) (hst : round.status = .Revealing)
    (hstate : c.2.world.store.state id b = some state) (hnone : state.revealedValue = none)
    {value : I128} {nonce : BytesN 32} {a : Except Rejection Unit}
    (ha : n.Serves c (.reveal id.toNat b value.toInt nonce.val) a d) :
    Window n config (.v1 id) round.revealDeadline w d ∧
    ((AcceptsPreimage n.host state (bidPreimage value nonce) ∧ a = .ok () ∧ ∃ state',
      MarksPreimage state (bidPreimage value nonce) state' ∧ d.2.world.store.state id =
        Function.update (c.2.world.store.state id) b (some state')) ∨
    (¬ AcceptsPreimage n.host state (bidPreimage value nonce) ∧
      d.2.world.store.state id = c.2.world.store.state id ∧
      ∃ r error, a = .error r ∧ Reports r error ∧
        (error ∈ idempotentReveal ∨ error ∈ invalidSubmission))) := by
  rw [serves_reveal, call_reveal] at ha
  obtain ⟨tx, htime, hself, ha⟩ := ha
  have hnow : c.2.now ≤ tx.timestamp := htime ▸ UInt64.le_refl _
  have hstored : c.2.world.store.round id = some round := h.same.1.trans hr
  have hto : tx.timestamp ≤ round.revealDeadline := by
    rw [htime]
    exact h.before
  have hyields : ∀ f' u, Yields (reveal id b value nonce) ⟨n.host, tx⟩ c.2.world.frame u f' ↔ _ :=
    fun f' u => yields_reveal hstored b value nonce f' u
  split at ha
  · next o ho =>
    obtain ⟨rfl, rfl⟩ := ha
    have hsound := (Step.called hnow hself ho).sound h.sound
    obtain ⟨_, hy, -⟩ := (yields_map ..).mp (invoke_eq_ok.mp ho)
    obtain ⟨-, -, other, hother, -, hash, hle, hframe⟩ := (hyields _ _).mp hy
    obtain rfl : state = other := Option.some_inj.mp (hstate.symm.trans hother)
    have hstore := congrArg (fun f : Frame => f.store) hframe
    have hsame : SameRound c.2.world o.world (.v1 id) := by
      refine ⟨?_, ?_⟩ <;> rw [hstore] <;> simp [Store.writeRound, hstored]
    refine ⟨⟨?_, h.same.trans hsame, h.before⟩,
      Or.inl ⟨⟨value, nonce, rfl, hash, hle⟩, rfl, _, ⟨value, nonce, rfl, rfl⟩, ?_⟩⟩
    · rw [← htime]
      exact hsound
    · show o.world.store.state id = _
      rw [hstore]
      simp [Store.writeRound]
  · next f hf =>
    obtain ⟨hd, r, rfl, hreports⟩ := ha
    subst hd
    refine ⟨h, Or.inr ⟨fun haccepts => ?_, rfl, ?_⟩⟩
    · obtain ⟨value', nonce', hx, hash, hle⟩ := haccepts
      obtain ⟨rfl, rfl⟩ := bidPreimage_inj.mp hx
      have hy := (hyields _ ⟨⟩).mpr ⟨hst, hto, state, hstate, hnone, hash, hle, rfl⟩
      obtain ⟨o, ho, -⟩ := @invoke_of_yields _ _ _ _ (.reveal id b value nonce) _ _ rfl _ _ hy
      rw [hf] at ho
      cases ho
    · have hfails : Fails (reveal id b value nonce) ⟨n.host, tx⟩ d.2.world.frame f :=
        (fails_map ..).mp (invoke_eq_error.mp hf)
      obtain ⟨error, rfl, hwindow | ⟨-, -, hrecord⟩⟩ := fails_reveal hstored b value nonce hfails
      · exact absurd hto (UInt64.not_le.mpr (hwindow.late hst))
      · rw [hstate] at hrecord
        exact ⟨r, error, rfl, hreports error rfl, bid_skipped hrecord⟩

theorem Window.tries (h : Window n config (.v1 id) round.revealDeadline w c)
    (hn : n.Works (.v1 id) round.revealDeadline) (hr : w.store.round id = some round)
    (hst : round.status = .Revealing) (hstate : c.2.world.store.state id b = some state)
    (hnone : state.revealedValue = none) {x : Bytes} {y : OpenedBid}
    (hdecode : decodeBidPreimage x = .ok y) {result : KeeperResult}
    {r : Except Rejection KeeperResult}
    (hends : (tryReveal id.toNat b y result).Ends n.Answers c r d) :
    (∃ result', r = .ok result') ∧ Window n config (.v1 id) round.revealDeadline w d ∧
    ((AcceptsPreimage n.host state x ∧ ∃ state', MarksPreimage state x state' ∧
      d.2.world.store.state id = Function.update (c.2.world.store.state id) b (some state')) ∨
    (¬ AcceptsPreimage n.host state x ∧
      d.2.world.store.state id = c.2.world.store.state id)) := by
  obtain ⟨value, nonce, rfl, rfl⟩ := decodeBidPreimage_eq_ok.mp hdecode
  unfold tryReveal at hends
  obtain ⟨a, d', hask, hends⟩ := Coroutine.ends_attempt_bind.mp hends
  obtain ⟨c', hc', hsame, hserves⟩ := h.answer hn (ends_ask.mp hask)
  have hsame : c'.2.world.store.state id = c.2.world.store.state id := hsame
  obtain ⟨hd', haccept | ⟨hreject, hkept, r', error, rfl, hreports, hskip⟩⟩ :=
    hc'.reveals hr hst (hsame ▸ hstate) hnone hserves
  · obtain ⟨haccepts, rfl, state', hmarks, hupdate⟩ := haccept
    obtain ⟨rfl, rfl⟩ := Coroutine.ends_pure.mp hends
    exact ⟨⟨_, rfl⟩, hd', Or.inl ⟨haccepts, state', hmarks, by rw [hupdate, hsame]⟩⟩
  · have hkept := hkept.trans hsame
    simp only [reported_isOneOf hreports] at hends
    split at hends
    · obtain ⟨rfl, rfl⟩ := Coroutine.ends_pure.mp hends
      exact ⟨⟨_, rfl⟩, hd', Or.inr ⟨hreject, hkept⟩⟩
    · next hnot =>
      split at hends
      · obtain ⟨rfl, rfl⟩ := Coroutine.ends_pure.mp hends
        exact ⟨⟨_, rfl⟩, hd', Or.inr ⟨hreject, hkept⟩⟩
      · rw [if_pos (hskip.resolve_left hnot)] at hends
        obtain ⟨rfl, rfl⟩ := Coroutine.ends_pure.mp hends
        exact ⟨⟨_, rfl⟩, hd', Or.inr ⟨hreject, hkept⟩⟩

theorem firstGeneration_meets (hn : n.Works (.v1 id) round.revealDeadline)
    (hr : w.store.round id = some round) (hst : round.status = .Revealing) :
    (firstGeneration id.toNat).Meets n (Window n config (.v1 id) round.revealDeadline w)
      (fun c => c.2.world.store.state id) (w.sealOf (.v1 id)) (AcceptsPreimage n.host)
      MarksPreimage where
  elapse hP helapses := hP.elapse hn helapses
  readState hP hstate hends := by
    obtain ⟨c', hc', hsame, rfl, hread⟩ := hP.answer hn (ends_ask.mp hends)
    rw [n.encoder.u64_toNat, Option.bind_some, show _ = _ from hsame, hstate] at hread
    exact ⟨hread.some, hc', hsame⟩
  readSeal hP hends := by
    obtain ⟨c', hc', hsame, rfl, hshows⟩ := hP.answer hn (ends_ask.mp hends)
    exact ⟨hc'.shows hn (n.encoder.u64_map id RoundKey.v1) hshows, hc', hsame⟩
  decodes := by
    rintro state x ⟨value, nonce, hx, -⟩
    exact ⟨_, decodeBidPreimage_eq_ok.mpr ⟨value, nonce, hx, rfl⟩⟩
  tryReveal hP hstate hnot hdecode hends :=
    hP.tries hn hr hst hstate (Option.isSome_eq_false_iff.mp hnot |> Option.isNone_iff_eq_none.mp)
      hdecode hends

end

/-! ## One pass -/

section

variable {host : Host} {config : GlobalConfig} {c d : Scene} {id : UInt64} {n : Network}
  {key : RoundKey} {deadline : UInt64} {deps : KeeperDeps} {b : Address}
  {r : Except Rejection KeeperResult}

theorem keepRoundV2_ends {round : RoundV2} (hs : c.2.Sound n.host config)
    (hr : c.2.world.store.roundV2 id = some round) (hst : round.status = .Revealing)
    (hbefore : c.2.now ≤ round.revealDeadline) (hn : n.Works (.v2 id) round.revealDeadline)
    (hends : (keepRoundV2 deps id.toNat).Ends n.Answers c r d) :
    (∃ result, r = .ok result) ∧ ∀ b ∈ round.bidders, ∀ state,
      c.2.world.store.submissionV2 id b = some state →
      ∃ state', d.2.world.store.submissionV2 id b = some state' ∧
        Kept (fun s : SubmissionStateV2 => s.revealedEnvelope.isSome)
          (n.Unlocks (c.2.world.sealOf (.v2 id) b)) (AcceptsEnvelope n.host round.mode)
          MarksEnvelope state state' := by
  have h : Window n config (.v2 id) round.revealDeadline c.2.world c :=
    ⟨hs, SameRound.refl .., hbefore⟩
  have hg := @secondGeneration_meets config id n c.2.world deps round hn hr hst
  have hround : ShowsRecord n (Window n config (.v2 id) round.revealDeadline c.2.world)
      (fun e => e.2.world.store.submissionV2 id) (ask (.getRoundV2 id.toNat)) round := by
    intro e f a he hask
    obtain ⟨e', he', hsame, rfl, hread⟩ := he.answer hn (ends_ask.mp hask)
    rw [n.encoder.u64_toNat, Option.bind_some, he'.same.1.trans hr] at hread
    exact ⟨hread.some, he', hsame⟩
  have hbidders : ShowsRecord n (Window n config (.v2 id) round.revealDeadline c.2.world)
      (fun e => e.2.world.store.submissionV2 id) (ask (.getBiddersV2 id.toNat))
      round.bidders := by
    intro e f a he hask
    obtain ⟨e', he', hsame, rfl, hread⟩ := he.answer hn (ends_ask.mp hask)
    rw [n.encoder.u64_toNat, Option.bind_some, he'.same.1.trans hr, Option.map_some] at hread
    exact ⟨hread.some, he', hsame⟩
  rcases Coroutine.ends_bind.mp hends with ⟨first, c₁, hask, hends⟩ | ⟨e, -, hask⟩
  · obtain ⟨hfirst, hc₁, hsame₁⟩ := hround h hask
    obtain rfl : round = first := (Except.ok.inj hfirst).symm
    have hsame₁ : c₁.2.world.store.submissionV2 id = c.2.world.store.submissionV2 id := hsame₁
    have hnot : round.status ≠ .Open := by simp [hst]
    have hsound := hs.world.views _ _ (World.view_roundV2 hr)
    have hentered : ∀ b ∈ round.bidders,
        ∃ state, c₁.2.world.store.submissionV2 id b = some state := by
      intro b hb
      rw [hsame₁]
      exact RoundV2.entered hsound hb
    rw [if_neg hnot] at hends
    unfold keepRevealingV2 at hends
    rw [if_pos hst, keepSubmission_eq] at hends
    rw [← hsame₁]
    exact hg.phase hc₁ hsound.nodup hentered hbidders hround hends
  · cases (hround h hask).1

theorem keepRound_ends {round : Round} (hs : c.2.Sound n.host config)
    (hr : c.2.world.store.round id = some round) (hst : round.status = .Revealing)
    (hbefore : c.2.now ≤ round.revealDeadline) (hn : n.Works (.v1 id) round.revealDeadline)
    (hends : (keepRound deps id.toNat).Ends n.Answers c r d) :
    (∃ result, r = .ok result) ∧ ∀ b ∈ round.bidders, ∀ state,
      c.2.world.store.state id b = some state →
      ∃ state', d.2.world.store.state id b = some state' ∧
        Kept (fun s : BidState => s.revealedValue.isSome)
          (n.Unlocks (c.2.world.sealOf (.v1 id) b)) (AcceptsPreimage n.host) MarksPreimage
          state state' := by
  have h : Window n config (.v1 id) round.revealDeadline c.2.world c :=
    ⟨hs, SameRound.refl .., hbefore⟩
  have hg := @firstGeneration_meets config id n c.2.world round hn hr hst
  have hround : ShowsRecord n (Window n config (.v1 id) round.revealDeadline c.2.world)
      (fun e => e.2.world.store.state id) (ask (.getRound id.toNat)) round := by
    intro e f a he hask
    obtain ⟨e', he', hsame, rfl, hread⟩ := he.answer hn (ends_ask.mp hask)
    rw [n.encoder.u64_toNat, Option.bind_some, he'.same.1.trans hr] at hread
    exact ⟨hread.some, he', hsame⟩
  have hbidders : ShowsRecord n (Window n config (.v1 id) round.revealDeadline c.2.world)
      (fun e => e.2.world.store.state id) (ask (.bidders id.toNat)) round.bidders := by
    intro e f a he hask
    obtain ⟨e', he', hsame, rfl, hread⟩ := he.answer hn (ends_ask.mp hask)
    rw [n.encoder.u64_toNat, Option.bind_some, he'.same.1.trans hr, Option.map_some] at hread
    exact ⟨hread.some, he', hsame⟩
  rcases Coroutine.ends_bind.mp hends with ⟨first, c₁, hask, hends⟩ | ⟨e, -, hask⟩
  · obtain ⟨hfirst, hc₁, hsame₁⟩ := hround h hask
    obtain rfl : round = first := (Except.ok.inj hfirst).symm
    have hsame₁ : c₁.2.world.store.state id = c.2.world.store.state id := hsame₁
    have hnot : round.status ≠ .Open := by simp [hst]
    have hsound := hs.world.views _ _ (hs.world.view_round hr)
    have hentered : ∀ b ∈ round.bidders, ∃ state, c₁.2.world.store.state id b = some state := by
      intro b hb
      rw [hsame₁]
      exact Round.entered hsound hb
    rw [if_neg hnot] at hends
    unfold keepRevealing at hends
    rw [if_pos hst, keepBidder_eq] at hends
    rw [← hsame₁]
    exact hg.phase hc₁ hsound.nodup hentered hbidders hround hends
  · cases (hround h hask).1

/-- Where the network works, every pass ends. -/
theorem Network.Works.exists_ends (hn : n.Works key deadline) (hbefore : c.2.now ≤ deadline)
    {α : Type} (x : Pass α) : ∃ r d, x.Ends n.Answers c r d := by
  have hanswer : ∀ c q, c.2.now ≤ deadline → ∃ a d, n.Answers c q a d ∧ d.2.now ≤ deadline := by
    intro c q hc
    obtain ⟨c', helapses⟩ := hn.elapse c hc
    obtain ⟨a, d, hserves, hnow⟩ := exists_serves hn.published hn.relays c' q
    obtain ⟨_, _, -, -, -, -, hto⟩ := hn.undisturbed c c' helapses
    exact ⟨a, d, ⟨c', helapses, hserves⟩, hnow ▸ hto⟩
  obtain ⟨r, d, hends, -⟩ := Coroutine.exists_ends (P := fun c : Scene => c.2.now ≤ deadline)
    (fun _ _ hc => hc) hanswer x hbefore
  exact ⟨r, d, hends⟩

/-- **Completeness of the keeper.** A pass inside the reveal window ends normally and reveals
exactly what opens to something acceptable, byte for byte. -/
theorem keeper_complete {c₀ x : Chain} {events : List Event} (hd : Deployed config c₀)
    (hrun : Run n.host c₀ events x) (deps : KeeperDeps) (m : Memory) (id : UInt64) :
    (∀ round, x.world.store.roundV2 id = some round → round.status = .Revealing →
      x.now ≤ round.revealDeadline → n.Works (.v2 id) round.revealDeadline →
      (∃ r d, (keepRoundV2 deps id.toNat).Ends n.Answers (m, x) r d) ∧
      ∀ r d, (keepRoundV2 deps id.toNat).Ends n.Answers (m, x) r d →
        (∃ result, r = .ok result) ∧ ∀ b ∈ round.bidders, ∃ state state',
          x.world.store.submissionV2 id b = some state ∧
          d.2.world.store.submissionV2 id b = some state' ∧
          (state'.revealedEnvelope.isSome = true ↔ state.revealedEnvelope.isSome = true ∨
            ∃ e, n.Unlocks (x.world.sealOf (.v2 id) b) e ∧
              AcceptsEnvelope n.host round.mode state e) ∧
          (state.revealedEnvelope = none → ∀ e, state'.revealedEnvelope = some e →
            n.Unlocks (x.world.sealOf (.v2 id) b) e)) ∧
    (∀ round, x.world.store.round id = some round → round.status = .Revealing →
      x.now ≤ round.revealDeadline → n.Works (.v1 id) round.revealDeadline →
      (∃ r d, (keepRound deps id.toNat).Ends n.Answers (m, x) r d) ∧
      ∀ r d, (keepRound deps id.toNat).Ends n.Answers (m, x) r d →
        (∃ result, r = .ok result) ∧ ∀ b ∈ round.bidders, ∃ state state',
          x.world.store.state id b = some state ∧ d.2.world.store.state id b = some state' ∧
          (state'.revealedValue.isSome = true ↔ state.revealedValue.isSome = true ∨
            ∃ e, n.Unlocks (x.world.sealOf (.v1 id) b) e ∧ AcceptsPreimage n.host state e) ∧
          (state.revealedValue = none → ∀ value, state'.revealedValue = some value →
            ∃ nonce, state'.revealedNonce = some nonce ∧ state'.valid = decide (0 < value) ∧
              n.Unlocks (x.world.sealOf (.v1 id) b) (bidPreimage value nonce))) := by
  have hs := hrun.sound hd.chain_sound
  refine ⟨fun round hr hst hbefore hn => ⟨hn.exists_ends hbefore _, fun r d hends => ?_⟩,
    fun round hr hst hbefore hn => ⟨hn.exists_ends hbefore _, fun r d hends => ?_⟩⟩
  · obtain ⟨hok, hkept⟩ := keepRoundV2_ends hs hr hst hbefore hn hends
    refine ⟨hok, fun b hb => ?_⟩
    obtain ⟨state, hstate⟩ := RoundV2.entered (hs.world.views _ _ (World.view_roundV2 hr)) hb
    obtain ⟨state', hstate', hkept⟩ := hkept b hb state hstate
    refine ⟨state, state', hstate, hstate', hkept.revealed_iff ?_, fun hnone e he => ?_⟩
    · rintro s e s' ⟨amount, rfl⟩
      rfl
    · obtain ⟨e', hunlocks, -, amount, rfl⟩ := hkept.marked (by simp [hnone]) (by simp [he])
      rwa [← Option.some_inj.mp he]
  · obtain ⟨hok, hkept⟩ := keepRound_ends hs hr hst hbefore hn hends
    refine ⟨hok, fun b hb => ?_⟩
    obtain ⟨state, hstate⟩ := Round.entered (hs.world.views _ _ (hs.world.view_round hr)) hb
    obtain ⟨state', hstate', hkept⟩ := hkept b hb state hstate
    refine ⟨state, state', hstate, hstate', hkept.revealed_iff ?_, fun hnone value hvalue => ?_⟩
    · rintro s e s' ⟨value, nonce, rfl, rfl⟩
      rfl
    · obtain ⟨e', hunlocks, -, value', nonce, rfl, rfl⟩ :=
        hkept.marked (by simp [hnone]) (by simp [hvalue])
      obtain rfl := Option.some_inj.mp hvalue
      exact ⟨nonce, rfl, rfl, hunlocks⟩

/-- A network where nothing else happens. -/
def sealedNetwork (tlock : Bytes → Except Rejection Bytes) : Network where
  host := Sample.host
  encoder := .strict
  elapses c d := d = c ∧ c.2.now ≤ 1100
  expired _ _ _ := False
  published _ _ b := b = true
  relays _ _ a := a = .ok []
  tlock := tlock

theorem sealedNetwork_works (tlock : Bytes → Except Rejection Bytes) (key : RoundKey) :
    (sealedNetwork tlock).Works key 1100 where
  undisturbed := by
    rintro c d ⟨rfl, hnow⟩
    exact ⟨[], d.2, Runs.Run.nil, by simp, rfl, UInt64.le_refl _, hnow⟩
  present _ _ := id
  elapse c hc := ⟨c, rfl, hc⟩
  published _ _ := ⟨true, rfl⟩
  relays _ _ := ⟨.ok [], rfl⟩

/-- Every seal opens to `plaintext`. -/
def sampleNetwork (plaintext : Bytes) : Network := sealedNetwork fun _ => .ok plaintext

def sampleKeeperDeps : KeeperDeps where
  settlementGuard := false
  protocolVersion := .v1
  maxWaitSeconds := 0
  engine := silentEngine

def sampleMemory : Memory := ⟨0, false, .empty, .empty⟩

/-- An auction with one bid of Alice, opened. -/
def soleBid (value : Nat) : List Attempt :=
  [⟨Sample.tx Sample.operator 1000, .createRound Sample.args⟩,
    Sample.bid Sample.alice 1010 value, Sample.openIt]

/-- The ciphertext of Alice holds no bid; any other opens to `plaintext`. -/
def garbled (plaintext : Bytes) : Network :=
  sealedNetwork fun ciphertext => .ok (if ciphertext = [7] then [0] else plaintext)

/-- Alice seals nothing that can be read, Bob a bid of 20. -/
def mixedBids : List Attempt :=
  [⟨Sample.tx Sample.operator 1000, .createRound Sample.args⟩,
    ⟨Sample.tx Sample.alice 1010,
      .commit 1 Sample.alice (Sample.commitment 30) [7] (Sample.amount 50) []⟩,
    Sample.bid Sample.bob 1020 20, Sample.openIt]

/-- An offer of 20 without a payload. -/
def offer : Bytes := envelopeBytes (some (Sample.amount 20)) Sample.nonce.val []

/-- The same in a sale of the second generation. -/
def mixedOffers : List Attempt :=
  [⟨Sample.tx Sample.operator 1000, .createRoundV3 Sample.saleArgs Sample.salePolicy⟩,
    ⟨Sample.tx Sample.alice 1010,
      .commitV2 1 Sample.alice (Sample.commitment 30) [7] (Sample.amount 50) []⟩,
    ⟨Sample.tx Sample.bob 1020,
      .commitV2 1 Sample.bob (Sample.host.sha256 offer) [] (Sample.amount 50) []⟩,
    ⟨Sample.tx Sample.bob 1060, .openRevealV2 1 (Sample.signature 3)⟩]

/-- In both generations every pass ends normally and reveals the bid of Bob, past the seal of Alice
that holds none. -/
theorem keeper_complete_sample :
    (∃ c events, Run Sample.host Sample.deployed events c ∧
      ∀ r d, (keepRound sampleKeeperDeps 1).Ends (garbled (Sample.preimage 20)).Answers
        (sampleMemory, c) r d → (∃ result, r = .ok result) ∧
        (d.2.world.store.state 1 Sample.alice).map (fun s => s.revealedValue.isSome) =
          some false ∧
        (d.2.world.store.state 1 Sample.bob).map (fun s => s.revealedValue.isSome) = some true) ∧
    ∃ c events, Run Sample.host Sample.deployed events c ∧
      ∀ r d, (keepRoundV2 sampleKeeperDeps 1).Ends (garbled offer).Answers (sampleMemory, c) r d →
        (∃ result, r = .ok result) ∧
        (d.2.world.store.submissionV2 1 Sample.alice).map (fun s => s.revealedEnvelope.isSome) =
          some false ∧
        (d.2.world.store.submissionV2 1 Sample.bob).map (fun s => s.revealedEnvelope.isSome) =
          some true := by
  constructor
  · obtain ⟨c, events, hrun, hvalue⟩ := Chain.exec_reaches Sample.host Sample.deployed mixedBids
      (fun c _ => decide (
        (c.world.store.round 1).map (fun r => (r.status, r.bidders, r.revealDeadline)) =
          some (.Revealing, [Sample.alice, Sample.bob], 1100) ∧ c.now ≤ 1100 ∧
        (c.world.store.state 1 Sample.alice).map (fun s => (s.commitment, s.revealedValue)) =
          some (Sample.commitment 30, none) ∧
        (c.world.store.state 1 Sample.bob).map (fun s => (s.commitment, s.escrow)) =
          some (Sample.commitment 20, Sample.amount 50) ∧
        c.world.sealOf (.v1 1) Sample.alice = some ⟨[7], []⟩ ∧
        c.world.sealOf (.v1 1) Sample.bob = some ⟨[], []⟩)) true (by decide +kernel)
    obtain ⟨hround, hnow, halice, hbob, hsealed, hsealed'⟩ := of_decide_eq_true hvalue
    obtain ⟨round, hr, hst, hbidders, hdeadline⟩ := exists_of_triple hround
    obtain ⟨-, hends⟩ := (keeper_complete (n := garbled (Sample.preimage 20)) Sample.deployed_ok
      hrun sampleKeeperDeps sampleMemory 1).2 round hr hst (hdeadline ▸ hnow)
      (hdeadline ▸ sealedNetwork_works _ _)
    refine ⟨c, events, hrun, fun r d h => ?_⟩
    obtain ⟨hok, hrecords⟩ := hends r d h
    refine ⟨hok, ?_, ?_⟩
    · obtain ⟨state, state', hold, hnew, hiff, -⟩ := hrecords Sample.alice (by simp [hbidders])
      rw [hold, Option.map_some, Option.some_inj] at halice
      obtain ⟨hcommitment, hnone⟩ := Prod.mk.inj halice
      rw [hnew, Option.map_some, Option.some_inj, Bool.eq_false_iff]
      intro hrevealed
      rcases hiff.mp hrevealed with hbefore | ⟨e, ⟨payload, hpayload, hopens⟩, _, _, -, hash, -⟩
      · rw [hnone] at hbefore
        cases hbefore
      · obtain rfl := Option.some_inj.mp (hsealed.symm.trans hpayload)
        obtain rfl : [0] = e := Except.ok.inj hopens
        rw [hcommitment] at hash
        exact absurd hash (by decide +kernel)
    · obtain ⟨state, state', hold, hnew, hiff, -⟩ := hrecords Sample.bob (by simp [hbidders])
      rw [hold, Option.map_some, Option.some_inj] at hbob
      obtain ⟨hcommitment, hescrow⟩ := Prod.mk.inj hbob
      rw [hnew, Option.map_some, Option.some_inj]
      refine hiff.mpr (Or.inr ⟨Sample.preimage 20, ⟨_, hsealed', rfl⟩, ?_⟩)
      exact ⟨Sample.amount 20, Sample.nonce, rfl, hcommitment.symm, by rw [hescrow]; decide +kernel⟩
  · obtain ⟨c, events, hrun, hvalue⟩ := Chain.exec_reaches Sample.host Sample.deployed mixedOffers
      (fun c _ => decide (
        (c.world.store.roundV2 1).map (fun r => (r.status, r.bidders, r.revealDeadline)) =
          some (.Revealing, [Sample.alice, Sample.bob], 1100) ∧ c.now ≤ 1100 ∧
        (c.world.store.submissionV2 1 Sample.alice).map
          (fun s => (s.commitment, s.revealedEnvelope)) = some (Sample.commitment 30, none) ∧
        (c.world.store.submissionV2 1 Sample.bob).map (fun s => (s.commitment, s.escrow)) =
          some (Sample.host.sha256 offer, Sample.amount 50) ∧
        c.world.sealOf (.v2 1) Sample.alice = some ⟨[7], []⟩ ∧
        c.world.sealOf (.v2 1) Sample.bob = some ⟨[], []⟩)) true (by decide +kernel)
    obtain ⟨hround, hnow, halice, hbob, hsealed, hsealed'⟩ := of_decide_eq_true hvalue
    obtain ⟨round, hr, hst, hbidders, hdeadline⟩ := exists_of_triple hround
    obtain ⟨-, hends⟩ := (keeper_complete (n := garbled offer) Sample.deployed_ok hrun
      sampleKeeperDeps sampleMemory 1).1 round hr hst (hdeadline ▸ hnow)
      (hdeadline ▸ sealedNetwork_works _ _)
    refine ⟨c, events, hrun, fun r d h => ?_⟩
    obtain ⟨hok, hrecords⟩ := hends r d h
    refine ⟨hok, ?_, ?_⟩
    · obtain ⟨state, state', hold, hnew, hiff, -⟩ := hrecords Sample.alice (by simp [hbidders])
      rw [hold, Option.map_some, Option.some_inj] at halice
      obtain ⟨hcommitment, hnone⟩ := Prod.mk.inj halice
      rw [hnew, Option.map_some, Option.some_inj, Bool.eq_false_iff]
      intro hrevealed
      rcases hiff.mp hrevealed with hbefore | ⟨e, ⟨payload, hpayload, hopens⟩, _, -, hash, -⟩
      · rw [hnone] at hbefore
        cases hbefore
      · obtain rfl := Option.some_inj.mp (hsealed.symm.trans hpayload)
        obtain rfl : [0] = e := Except.ok.inj hopens
        rw [hcommitment] at hash
        exact absurd hash (by decide +kernel)
    · obtain ⟨state, state', hold, hnew, hiff, -⟩ := hrecords Sample.bob (by simp [hbidders])
      rw [hold, Option.map_some, Option.some_inj] at hbob
      obtain ⟨hcommitment, hescrow⟩ := Prod.mk.inj hbob
      rw [hnew, Option.map_some, Option.some_inj]
      have hdecode : Sdk.decodePayloadEnvelope offer =
          .ok ⟨some 20, [], Sample.nonce.val⟩ :=
        Sdk.decodePayloadEnvelope_eq_ok.mpr
          ⟨some (Sample.amount 20), rfl, Sample.nonce.property, by decide, rfl⟩
      refine hiff.mpr (Or.inr ⟨offer, ⟨_, hsealed', rfl⟩, _, hdecode, hcommitment.symm,
        fun _ => ?_⟩)
      exact ⟨20, rfl, by decide, by rw [hescrow]; decide +kernel⟩

/-- A bid of zero is revealed too in the first generation. -/
theorem zero_bid_revealed : ∃ c events round,
    Run Sample.host Sample.deployed events c ∧ c.world.store.round 1 = some round ∧
    round.status = .Revealing ∧ c.now ≤ round.revealDeadline ∧
    (sampleNetwork (Sample.preimage 0)).Works (.v1 1) round.revealDeadline ∧
    ∃ state, c.world.store.state 1 Sample.alice = some state ∧ state.revealedValue = none ∧
    (∃ r d, (keepRound sampleKeeperDeps 1).Ends (sampleNetwork (Sample.preimage 0)).Answers
      (sampleMemory, c) r d) ∧
    ∀ r d, (keepRound sampleKeeperDeps 1).Ends (sampleNetwork (Sample.preimage 0)).Answers
      (sampleMemory, c) r d →
      (∃ state', d.2.world.store.state 1 Sample.alice = some state' ∧
        state'.revealedValue.isSome = true) ∧
      ¬ ∃ value nonce, (sampleNetwork (Sample.preimage 0)).Unlocks
        (c.world.sealOf (.v1 1) Sample.alice) (bidPreimage value nonce) ∧ 0 < value ∧
        value ≤ state.escrow := by
  obtain ⟨c, events, hrun, hvalue⟩ := Chain.exec_reaches Sample.host Sample.deployed (soleBid 0)
    (fun c _ => decide (
      (c.world.store.round 1).map (fun r => (r.status, r.bidders, r.revealDeadline)) =
        some (.Revealing, [Sample.alice], 1100) ∧ c.now ≤ 1100 ∧
      (c.world.store.state 1 Sample.alice).map
        (fun s => (s.commitment, s.escrow, s.revealedValue)) =
        some (Sample.commitment 0, Sample.amount 50, none) ∧
      c.world.sealOf (.v1 1) Sample.alice = some ⟨[], []⟩)) true (by decide +kernel)
  obtain ⟨hround, hnow, hstate, hsealed⟩ := of_decide_eq_true hvalue
  obtain ⟨round, hr, hst, hbidders, hdeadline⟩ := exists_of_triple hround
  obtain ⟨state, hold, hcommitment, hescrow, hnone⟩ := exists_of_triple hstate
  have hbefore : c.now ≤ round.revealDeadline := hdeadline ▸ hnow
  have hworks : (sampleNetwork (Sample.preimage 0)).Works (.v1 1) round.revealDeadline :=
    hdeadline ▸ sealedNetwork_works _ _
  have hs := hrun.sound Sample.deployed_ok.chain_sound
  refine ⟨c, events, round, hrun, hr, hst, hbefore, hworks, state, hold, hnone,
    hworks.exists_ends hbefore _, fun r d hends => ⟨?_, ?_⟩⟩
  · obtain ⟨-, hkept⟩ := keepRound_ends (c := (sampleMemory, c)) hs hr hst hbefore hworks hends
    obtain ⟨state', hnew, hkept⟩ := hkept Sample.alice (by simp [hbidders]) state hold
    refine ⟨state', hnew, (hkept.revealed_iff ?_).mpr (Or.inr ⟨Sample.preimage 0, ?_, ?_⟩)⟩
    · rintro s e s' ⟨value, nonce, rfl, rfl⟩
      rfl
    · exact ⟨_, hsealed, rfl⟩
    · exact ⟨Sample.amount 0, Sample.nonce, rfl, hcommitment.symm, by rw [hescrow]; decide +kernel⟩
  · rintro ⟨value, nonce, ⟨payload, -, hopens⟩, hpos, -⟩
    obtain ⟨rfl, -⟩ := bidPreimage_inj.mp (Except.ok.inj hopens)
    exact absurd hpos (by decide +kernel)

end

end SubRosa.Keeper
