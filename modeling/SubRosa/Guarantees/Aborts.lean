import SubRosa.Auction.Lifecycle
import SubRosa.Auction.Refusals
import SubRosa.Guarantees.Completeness

/-!
# When a keeper pass aborts

Others call the contract between any two answers that a pass gets. Its lists
of expected errors decide which of their calls it survives; here are the
errors that remain, pass by pass. The facts used about the round are those
that nobody's progress undoes.
-/

namespace SubRosa

/-! ## Steady facts -/

/-- No step on the round makes the fact false. -/
def Steady (I : SealedRound → Prop) : Prop := ∀ q q', I q → q.Progress q' → I q'

/-- The statuses that a round can have later. -/
def Status.Leads : Status → Status → Prop
  | .Open, _ => True
  | .Revealing, s => s ≠ .Open
  | .Cleared, s => s = .Cleared ∨ s = .Settled
  | .Settled, s => s = .Settled
  | .Voided, s => s = .Voided

theorem Status.Leads.refl (s : Status) : s.Leads s := by
  cases s <;> simp [Status.Leads]

theorem Status.Leads.next {s t t' : Status} {q : SealedRound} (h : s.Leads t)
    (hnext : q.Next t t') : s.Leads t' := by
  cases hnext <;> cases s <;> simp_all [Status.Leads]

theorem Steady.and {I J : SealedRound → Prop} (hI : Steady I) (hJ : Steady J) :
    Steady fun q => I q ∧ J q :=
  fun q q' h hprogress => ⟨hI q q' h.1 hprogress, hJ q q' h.2 hprogress⟩

theorem steady_leads (s : Status) : Steady fun q => s.Leads q.status :=
  fun _ _ h hprogress => hprogress.stays (fun _ _ _ hs hnext => hs.next hnext) h

theorem steady_entered (b : Address) : Steady fun q => b ∈ q.bidders :=
  fun _ _ h hprogress => hprogress.bidders.subset h

theorem Run.policed_from {host : Host} {config : GlobalConfig} {c c' : Chain}
    {events : List Event} (h : Run host c events c') (hs : c.Sound host config) {id : UInt64}
    (hkept : PolicyKept id events) (hp : c.world.store.Policed id) :
    c'.world.store.Policed id := by
  induction h with
  | nil => exact hp
  | snoc hrun hstep ih =>
    obtain ⟨hevents, he⟩ := hkept.snoc
    exact hstep.policed (Run.sound hrun hs) he (ih hevents)

end SubRosa

namespace SubRosa.Keeper

open JavaScript Invocation MachineInt

/-! ## What a pass can rely on -/

/-- Others only make calls and let time pass; they do not lose the opening policy. Relays answer
with signatures of 96 bytes. -/
structure Network.Shared (n : Network) (id : UInt64) : Prop where
  others : ∀ c d, n.elapses c d → ∃ events, Run n.host c.2 events d.2 ∧ PolicyKept id events
  relays : ∀ c round signature, n.relays c round (.ok signature) → signature.length = 96

/-- An answer of a node that works, where a refused call reports the error of the contract: no
payout traps. -/
def Network.Reliable (n : Network) (c : Scene) (q : Request) (a : Except Rejection q.Answer)
    (d : Scene) : Prop :=
  ∃ c', n.elapses c c' ∧ n.Serves c' q a d ∧ ∀ call r, n.call q = some call → a = .error r →
    ∃ tx e, invoke n.host tx call c'.2.world = .error (.error e) ∧ Reports r e

/-- The rejection reports one of these errors. -/
def ReportsOneOf (errors : List Error) (r : Rejection) : Prop := ∃ e ∈ errors, Reports r e

/-- The round under `key` is there, with the fact `I`. -/
structure Tracks (host : Host) (config : GlobalConfig) (key : RoundKey)
    (I : SealedRound → Prop) (c : Scene) : Prop where
  sound : c.2.Sound host config
  policed : c.2.world.store.Policed key.id
  round : ∃ r, c.2.world.view key = some r ∧ I r

/-- The key of a round in the generation of the keeper. -/
def ProtocolVersion.key (id : UInt64) : ProtocolVersion → RoundKey
  | .v1 => .v1 id
  | .v2 => .v2 id

@[simp] theorem ProtocolVersion.key_id (id : UInt64) (version : ProtocolVersion) :
    (version.key id).id = id := by
  cases version <;> rfl

section

variable {n : Network} {host : Host} {config : GlobalConfig} {key : RoundKey} {id : UInt64}
  {I J : SealedRound → Prop} {c d : Scene} {E : Rejection → Prop} {α : Type}

theorem Tracks.mono (h : Tracks host config key I c) (hIJ : ∀ q, I q → J q) :
    Tracks host config key J c :=
  ⟨h.sound, h.policed, h.round.imp fun q hq => ⟨hq.1, hIJ q hq.2⟩⟩

theorem Tracks.run (h : Tracks host config key I c) (hI : Steady I) {events : List Event}
    (hrun : Run host c.2 events d.2) (hkept : PolicyKept key.id events) :
    Tracks host config key I d := by
  obtain ⟨r, hr, hIr⟩ := h.round
  exact ⟨hrun.sound h.sound, hrun.policed_from h.sound hkept h.policed,
    hrun.keeps hI h.sound hr hIr⟩

/-- **What a pass knows stays true.** -/
theorem Network.Shared.stable (hn : n.Shared key.id) (hI : Steady I) :
    Coroutine.Stable n.Reliable (Tracks n.host config key I) where
  answer h ha := by
    obtain ⟨c', helapses, hserves, -⟩ := ha
    obtain ⟨events, hothers, hkept⟩ := hn.others _ _ helapses
    obtain ⟨events', hown, hkept'⟩ := hserves.run
    exact (h.run hI hothers hkept).run hI hown hkept'
  change h _ := ⟨h.sound, h.policed, h.round⟩

/-- The scene in which a request is served. -/
theorem Network.Shared.served (hn : n.Shared key.id) (hI : Steady I)
    (h : Tracks n.host config key I c) {q : Request} {a : Except Rejection q.Answer}
    (ha : n.Reliable c q a d) :
    ∃ c', Tracks n.host config key I c' ∧ Tracks n.host config key I d ∧ n.Serves c' q a d := by
  obtain ⟨c', helapses, hserves, -⟩ := id ha
  obtain ⟨events, hothers, hkept⟩ := hn.others _ _ helapses
  exact ⟨c', h.run hI hothers hkept, (hn.stable hI).answer h ha, hserves⟩

/-- A refused call was refused by the contract, of a round that is still there. -/
theorem Network.Shared.refused (hn : n.Shared key.id) (hI : Steady I)
    (h : Tracks n.host config key I c) {q : Request} {call : Call} (hq : n.call q = some call)
    {r : Rejection} (ha : n.Reliable c q (.error r) d) :
    ∃ w now tx e q, w.Sound n.host config now ∧ w.store.Policed key.id ∧
      w.view key = some q ∧ I q ∧ invoke n.host tx call w = .error (.error e) ∧ Reports r e := by
  obtain ⟨c', helapses, -, hrefused⟩ := ha
  obtain ⟨events, hothers, hkept⟩ := hn.others _ _ helapses
  have hc' := h.run hI hothers hkept
  obtain ⟨q, hq', hIq⟩ := hc'.round
  obtain ⟨tx, e, hinvoke, hreports⟩ := hrefused call r hq rfl
  exact ⟨c'.2.world, _, tx, e, q, hc'.sound.world, hc'.policed, hq', hIq, hinvoke, hreports⟩

/-! ## Reads -/

/-- A read that is answered, in an unchanged scene, with what it shows of the round. -/
theorem Network.Shared.reads (hn : n.Shared key.id) (hI : Steady I) {q : Request}
    {A : q.Answer → SealedRound → Prop}
    (hread : ∀ c a d, Tracks n.host config key I c → n.Serves c q a d →
      d = c ∧ ∃ x, a = .ok x ∧ ∀ r, c.2.world.view key = some r → A x r) :
    Coroutine.Ensures n.Reliable (Tracks n.host config key I) (ask q)
      (fun x => Tracks n.host config key fun r => I r ∧ A x r) E := by
  refine Coroutine.ensures_request fun c a d hc ha => ?_
  obtain ⟨c', hc', -, hserves⟩ := hn.served hI hc ha
  obtain ⟨rfl, x, rfl, hx⟩ := hread c' a d hc' hserves
  obtain ⟨r, hr, hIr⟩ := hc'.round
  exact ⟨hc'.sound, hc'.policed, r, hr, hIr, hx r hr⟩

/-- A request that is never refused. -/
theorem Network.Shared.asks (hn : n.Shared key.id) (hI : Steady I) {q : Request}
    (hanswer : ∀ c a d, Tracks n.host config key I c → n.Serves c q a d → ∃ x, a = .ok x) :
    Coroutine.Ensures n.Reliable (Tracks n.host config key I) (ask q)
      (fun _ => Tracks n.host config key I) E := by
  refine Coroutine.ensures_request fun c a d hc ha => ?_
  obtain ⟨c', hc', hd, hserves⟩ := hn.served hI hc ha
  obtain ⟨x, rfl⟩ := hanswer c' a d hc' hserves
  exact hd

theorem Network.Shared.getRound (hn : n.Shared id) (hI : Steady I) :
    Coroutine.Ensures n.Reliable (Tracks n.host config (.v1 id) I) (ask (.getRound id.toNat))
      (fun round => Tracks n.host config (.v1 id) fun r => I r ∧ round.status.Leads r.status)
      E := by
  refine @Network.Shared.reads n config (.v1 id) I E hn hI (.getRound id.toNat)
    (fun (round : Round) r => round.status.Leads r.status)
    fun c a d hc hserves => ?_
  obtain ⟨rfl, hread⟩ := hserves
  obtain ⟨r, hr, -⟩ := hc.round
  obtain ⟨round, hround, rfl⟩ := hc.sound.world.of_view_v1 hr
  rw [n.encoder.u64_toNat, Option.bind_some, hround] at hread
  refine ⟨rfl, round, hread.some, fun q hq => ?_⟩
  obtain rfl := Option.some_inj.mp (hr.symm.trans hq)
  exact Status.Leads.refl _

theorem Network.Shared.getRoundV2 (hn : n.Shared id) (hI : Steady I) :
    Coroutine.Ensures n.Reliable (Tracks n.host config (.v2 id) I) (ask (.getRoundV2 id.toNat))
      (fun round => Tracks n.host config (.v2 id) fun r => I r ∧ round.status.Leads r.status)
      E := by
  refine @Network.Shared.reads n config (.v2 id) I E hn hI (.getRoundV2 id.toNat)
    (fun (round : RoundV2) r => round.status.Leads r.status)
    fun c a d hc hserves => ?_
  obtain ⟨rfl, hread⟩ := hserves
  obtain ⟨r, hr, -⟩ := hc.round
  obtain ⟨round, hround, rfl⟩ := World.of_view_v2 hr
  rw [n.encoder.u64_toNat, Option.bind_some, hround] at hread
  refine ⟨rfl, round, hread.some, fun q hq => ?_⟩
  obtain rfl := Option.some_inj.mp (hr.symm.trans hq)
  exact Status.Leads.refl _

/-- The hop after an awaited function. -/
theorem Network.Shared.call (hn : n.Shared key.id) {P : Scene → Prop} {x : Pass α}
    {K : α → SealedRound → Prop} (hK : ∀ a, Steady (K a))
    (hx : Coroutine.Ensures n.Reliable P x (fun a => Tracks n.host config key (K a)) E) :
    Coroutine.Ensures n.Reliable P (Keeper.call x)
      (fun a => Tracks n.host config key (K a)) E := by
  intro c r d hc hends
  obtain ⟨o, c₁, hfirst, hends⟩ := Coroutine.ends_attempt_bind.mp hends
  have ho := hx c o c₁ hc hfirst
  rcases Coroutine.ends_bind.mp hends with ⟨_, c₂, hturn, hdone⟩ | ⟨e, -, hturn⟩
  · obtain ⟨rfl, rfl⟩ := Coroutine.ends_done.mp hdone
    cases r with
    | ok a => exact (hn.stable (hK a)).answer ho (Coroutine.ends_request.mp hturn)
    | error e => exact ho
  · obtain ⟨c', -, hserves, -⟩ := Coroutine.ends_request.mp hturn
    cases hserves.2

/-! ## Opening -/

/-- What an opening can end a pass with. -/
def openAborts : RoundKey → List Error
  | .v1 _ => [.CommitNotClosed, .InvalidDrandSignature]
  | .v2 _ => [.CommitNotClosed, .RevealWindowClosed, .InvalidDrandSignature]

theorem Network.Shared.fetchSignature (hn : n.Shared key.id) (hI : Steady I) (round : UInt64)
    (k : Nat) :
    Coroutine.Ensures n.Reliable (Tracks n.host config key I) (fetchSignature round k)
      (fun o c => Tracks n.host config key I c ∧ ∀ signature, o = some signature →
        signature.length = 96) E := by
  induction k with
  | zero =>
    refine Coroutine.ensures_pure fun c hc => ⟨hc, fun signature hs => ?_⟩
    cases hs
  | succ k ih =>
    refine Coroutine.Ensures.attempt (F := fun o d => Tracks n.host config key I d ∧
      ∀ signature, o = .ok signature → signature.length = 96) (fun c o d hc hends => ?_)
      fun o => ?_
    · obtain ⟨c', hc', hd, hserves⟩ := hn.served hI hc (Coroutine.ends_request.mp hends)
      refine ⟨hd, fun signature hs => ?_⟩
      subst hs
      exact hn.relays c' round signature hserves.2
    · cases o with
      | ok signature =>
        refine Coroutine.ensures_pure fun c hc => ⟨hc.1, fun other hother => ?_⟩
        exact Option.some_inj.mp hother ▸ hc.2 signature rfl
      | error e =>
        have hsleep := @Network.Shared.asks n config key I E hn hI .sleep
          fun _ _ _ _ hserves => ⟨(), hserves.2⟩
        exact (hsleep.mono (fun c hc => hc.1) fun _ _ hd => hd).bind fun _ => ih

/-- An error that the pass expects does not end it. -/
theorem ensures_tryOpen {P : Scene → Prop} {submit : Pass Unit} {errors : List Error}
    (hP : Coroutine.Stable n.Reliable P)
    (hsubmit : ∀ c e d, P c → submit.Ends n.Reliable c (.error e) d →
      ∃ error, Reports e error ∧ (error ∈ idempotentOpen ∨ error ∈ errors))
    (result : KeeperResult) :
    Coroutine.Ensures n.Reliable P (tryOpen submit result) (fun _ => P)
      (ReportsOneOf errors) := by
  refine Coroutine.Ensures.attempt (F := fun o d => P d ∧ ∀ e, o = .error e →
      ∃ error, Reports e error ∧ (error ∈ idempotentOpen ∨ error ∈ errors))
    (fun c o d hc hends => ⟨hP.ends hc hends, ?_⟩) fun o => ?_
  · rintro e rfl
    exact hsubmit c e d hc hends
  · cases o with
    | ok _ => exact Coroutine.ensures_pure fun c hc => hc.1
    | error e =>
      intro c r d hc hends
      obtain ⟨error, hreports, herror⟩ := hc.2 e rfl
      simp only [reported_isOneOf hreports] at hends
      split at hends
      · obtain ⟨rfl, rfl⟩ := Coroutine.ends_pure.mp hends
        exact hc.1
      · next hnot =>
        obtain ⟨rfl, rfl⟩ := Coroutine.ends_fail.mp hends
        exact ⟨error, herror.resolve_left hnot, hreports⟩

theorem mem_openErrors {status : Status} {error : Error} (h : error ∈ key.openErrors status) :
    error ∈ idempotentOpen ∨ error ∈ openAborts key := by
  cases status with
  | Open => exact Or.inr (by cases key <;> exact h)
  | _ => exact Or.inl (by simp_all [RoundKey.openErrors, idempotentOpen])

/-- The opening of a pass, whose request makes the call of the round. -/
theorem Network.Shared.opening (hn : n.Shared key.id) (hI : Steady I) {submit : Pass Unit}
    {signature : BytesN 96}
    (hsubmit : ∀ c e d, Tracks n.host config key I c → submit.Ends n.Reliable c (.error e) d →
      ∃ w now tx error q, w.Sound n.host config now ∧ w.store.Policed key.id ∧
        w.view key = some q ∧ I q ∧
        invoke n.host tx (key.openReveal signature) w = .error (.error error) ∧
        Reports e error) (result : KeeperResult) :
    Coroutine.Ensures n.Reliable (Tracks n.host config key I) (tryOpen submit result)
      (fun _ => Tracks n.host config key I) (ReportsOneOf (openAborts key)) := by
  refine ensures_tryOpen (hn.stable hI) (fun c e d hc hends => ?_) result
  obtain ⟨w, now, tx, error, q, hw, hpoliced, hq, -, hinvoke, hreports⟩ := hsubmit c e d hc hends
  exact ⟨error, hreports, mem_openErrors (hw.refused_opening hpoliced hq hinvoke)⟩

/-! ## Revealing -/

/-- What a reveal can end a pass with. -/
def revealAborts : List Error := [.RevealNotOpen, .AlreadySettled, .RoundVoided]

theorem windowError_aborts {status : Status} {t deadline : UInt64} {error : Error}
    (h : WindowError status t deadline error) :
    error = .RevealWindowClosed ∨ error ∈ revealAborts := by
  cases h with
  | settled => exact Or.inr (by decide)
  | voided => exact Or.inr (by decide)
  | notOpen => exact Or.inr (by decide)
  | closed => exact Or.inl rfl

/-- A refused reveal that the pass skips, or one that ends it. -/
def RevealRefused (e : Rejection) : Prop :=
  ∃ error, Reports e error ∧ (error ∈ idempotentReveal ∨ error ∈ invalidSubmission ∨
    error = .RevealWindowClosed ∨ error ∈ revealAborts)

theorem Network.Shared.refusedReveal (hn : n.Shared id) (hI : Steady I) {b : Address}
    {value : I128} {nonce : BytesN 32} {e : Rejection}
    (h : Tracks n.host config (.v1 id) (fun q => I q ∧ b ∈ q.bidders) c)
    (hends : (ask (.reveal id.toNat b value.toInt nonce.val)).Ends n.Reliable c (.error e) d) :
    RevealRefused e := by
  have hentered := hI.and (steady_entered b)
  obtain ⟨w, now, tx, error, q, hw, -, hq, ⟨-, hb⟩, hinvoke, hreports⟩ :=
    Network.Shared.refused hn hentered h (call_reveal n id b value nonce)
      (Coroutine.ends_request.mp hends)
  obtain ⟨round, hround, rfl⟩ := hw.of_view_v1 hq
  obtain ⟨error', herror, hwindow | ⟨-, -, hbid⟩⟩ :=
    fails_reveal hround b value nonce (fails_of_invoke rfl hinvoke)
  · obtain rfl := Failure.error.inj herror
    exact ⟨error, hreports, Or.inr (Or.inr (windowError_aborts hwindow))⟩
  · obtain rfl := Failure.error.inj herror
    obtain ⟨state, hstate⟩ := Round.entered (hw.views _ _ hq) hb
    rw [hstate] at hbid
    exact ⟨error, hreports, (bid_skipped hbid).imp_right Or.inl⟩

theorem Network.Shared.refusedRevealV2 (hn : n.Shared id) (hI : Steady I) {b : Address}
    {envelope : Bytes} {x : Sdk.PayloadEnvelope} {e : Rejection}
    (hdecode : Sdk.decodePayloadEnvelope envelope = .ok x)
    (h : Tracks n.host config (.v2 id) (fun q => I q ∧ b ∈ q.bidders) c)
    (hends : (ask (.revealV2 id.toNat b envelope)).Ends n.Reliable c (.error e) d) :
    RevealRefused e := by
  have hentered := hI.and (steady_entered b)
  obtain ⟨w, now, tx, error, q, hw, -, hq, ⟨-, hb⟩, hinvoke, hreports⟩ :=
    Network.Shared.refused hn hentered h (call_revealV2 n id b envelope)
      (Coroutine.ends_request.mp hends)
  obtain ⟨round, hround, rfl⟩ := World.of_view_v2 hq
  obtain ⟨error', herror, hwindow | ⟨-, -, hsubmission⟩⟩ :=
    fails_revealV2 hround b envelope (fails_of_invoke rfl hinvoke)
  · obtain rfl := Failure.error.inj herror
    exact ⟨error, hreports, Or.inr (Or.inr (windowError_aborts hwindow))⟩
  · obtain rfl := Failure.error.inj herror
    obtain ⟨state, hstate⟩ := RoundV2.entered (hw.views _ _ hq) hb
    rw [hstate] at hsubmission
    exact ⟨error, hreports, (submission_skipped hdecode hsubmission).imp_right Or.inl⟩

theorem Network.Shared.tryReveal (hn : n.Shared id) (hI : Steady I) {b : Address} {x : Bytes}
    {y : OpenedBid} (hdecode : decodeBidPreimage x = .ok y) (result : KeeperResult) :
    Coroutine.Ensures n.Reliable
      (Tracks n.host config (.v1 id) fun q => I q ∧ b ∈ q.bidders)
      (tryReveal id.toNat b y result) (fun _ => Tracks n.host config (.v1 id) I)
      (ReportsOneOf revealAborts) := by
  obtain ⟨value, nonce, rfl, rfl⟩ := decodeBidPreimage_eq_ok.mp hdecode
  refine Coroutine.Ensures.attempt (F := fun o d => Tracks n.host config (.v1 id) I d ∧
    ∀ e, o = .error e → RevealRefused e) (fun c o d hc hends => ⟨?_, ?_⟩) fun o => ?_
  · exact (@Network.Shared.stable n config (.v1 id) I hn hI).ends (hc.mono fun _ h => h.1) hends
  · rintro e rfl
    exact hn.refusedReveal hI hc hends
  · cases o with
    | ok _ => exact Coroutine.ensures_pure fun c hc => hc.1
    | error e =>
      intro c r d hc hends
      obtain ⟨error, hreports, herror⟩ := hc.2 e rfl
      simp only [reported_isOneOf hreports] at hends
      split at hends
      · obtain ⟨rfl, rfl⟩ := Coroutine.ends_pure.mp hends
        exact hc.1
      · next hidempotent =>
        split at hends
        · obtain ⟨rfl, rfl⟩ := Coroutine.ends_pure.mp hends
          exact hc.1
        · split at hends
          · obtain ⟨rfl, rfl⟩ := Coroutine.ends_pure.mp hends
            exact hc.1
          · next hinvalid =>
            split at hends
            · obtain ⟨rfl, rfl⟩ := Coroutine.ends_pure.mp hends
              exact hc.1
            · next hclosed =>
              obtain ⟨rfl, rfl⟩ := Coroutine.ends_fail.mp hends
              refine ⟨error, ?_, hreports⟩
              rcases herror with h | h | h | h
              · exact absurd h hidempotent
              · exact absurd h hinvalid
              · exact absurd (List.mem_singleton.mpr h) hclosed
              · exact h

theorem Network.Shared.tryRevealV2 {deps : KeeperDeps} (hn : n.Shared id) (hI : Steady I)
    {b : Address} {x : Bytes} {y : Sdk.PayloadEnvelope}
    (hdecode : Sdk.decodePayloadEnvelope x = .ok y) (result : KeeperResult) :
    Coroutine.Ensures n.Reliable
      (Tracks n.host config (.v2 id) fun q => I q ∧ b ∈ q.bidders)
      (tryRevealV2 deps id.toNat b y result) (fun _ => Tracks n.host config (.v2 id) I)
      (ReportsOneOf revealAborts) := by
  have hbytes : sdkRevealV2 deps id.toNat b y = ask (.revealV2 id.toNat b x) := by
    rw [sdkRevealV2, Sdk.encode_decode_envelope.mp hdecode]
    rfl
  unfold Keeper.tryRevealV2
  rw [hbytes]
  refine Coroutine.Ensures.attempt (F := fun o d => Tracks n.host config (.v2 id) I d ∧
    ∀ e, o = .error e → RevealRefused e) (fun c o d hc hends => ⟨?_, ?_⟩) fun o => ?_
  · exact (@Network.Shared.stable n config (.v2 id) I hn hI).ends (hc.mono fun _ h => h.1) hends
  · rintro e rfl
    exact hn.refusedRevealV2 hI hdecode hc hends
  · cases o with
    | ok _ => exact Coroutine.ensures_pure fun c hc => hc.1
    | error e =>
      intro c r d hc hends
      obtain ⟨error, hreports, herror⟩ := hc.2 e rfl
      simp only [reported_isOneOf hreports] at hends
      split at hends
      · obtain ⟨rfl, rfl⟩ := Coroutine.ends_pure.mp hends
        exact hc.1
      · next hidempotent =>
        split at hends
        · obtain ⟨rfl, rfl⟩ := Coroutine.ends_pure.mp hends
          exact hc.1
        · next hinvalid =>
          split at hends
          · obtain ⟨rfl, rfl⟩ := Coroutine.ends_pure.mp hends
            exact hc.1
          · next hclosed =>
            obtain ⟨rfl, rfl⟩ := Coroutine.ends_fail.mp hends
            refine ⟨error, ?_, hreports⟩
            rcases herror with h | h | h | h
            · exact absurd h hidempotent
            · exact absurd h hinvalid
            · exact absurd (List.mem_singleton.mpr h) hclosed
            · exact h

/-- What a seal opens to is the decoding of some plaintext. -/
theorem Generation.opened {S X : Type} {g : Generation S X} {deps : KeeperDeps}
    (hn : n.Shared key.id) (hI : Steady I) (ciphertext : Bytes) :
    Coroutine.Ensures n.Reliable (Tracks n.host config key I)
      (Keeper.call (g.openSeal deps ciphertext))
      (fun y => Tracks n.host config key fun q => I q ∧ ∃ x, g.decode x = .ok y)
      (fun _ => True) := by
  refine Network.Shared.call hn (fun y => hI.and fun _ _ h _ => h) ?_
  refine Coroutine.Ensures.bind (A := fun _ => Tracks n.host config key I) ?_ fun plaintext => ?_
  · refine Coroutine.ensures_request fun c a d hc ha => ?_
    have hd := (hn.stable hI).answer hc ha
    cases a with
    | ok plaintext => exact hd
    | error e => trivial
  · cases hdecode : g.decode plaintext with
    | ok y => exact Coroutine.ensures_pure fun c hc => hc.mono fun _ h => ⟨h, plaintext, hdecode⟩
    | error thrown => exact Coroutine.ensures_fail trivial

/-- One round of the loop, in either generation. -/
theorem Generation.outcome {S X : Type} {g : Generation S X} {deps : KeeperDeps}
    (hn : n.Shared key.id) (hI : Steady I)
    (hstate : ∀ b c state d, Tracks n.host config key I c →
      (g.readState b).Ends n.Reliable c (.ok state) d →
      Tracks n.host config key (fun q => I q ∧ b ∈ q.bidders) d)
    (hseal : ∀ b, Coroutine.Ensures n.Reliable
      (Tracks n.host config key fun q => I q ∧ b ∈ q.bidders) (g.readSeal b)
      (fun _ => Tracks n.host config key fun q => I q ∧ b ∈ q.bidders) (ReportsOneOf revealAborts))
    (htry : ∀ b x y result, g.decode x = .ok y → Coroutine.Ensures n.Reliable
      (Tracks n.host config key fun q => I q ∧ b ∈ q.bidders) (g.tryReveal b y result)
      (fun _ => Tracks n.host config key I) (ReportsOneOf revealAborts))
    (result : KeeperResult) (b : Address) :
    Coroutine.Ensures n.Reliable (Tracks n.host config key I) (g.keep deps result b)
      (fun _ => Tracks n.host config key I) (ReportsOneOf revealAborts) := by
  have hentered := hI.and (steady_entered b)
  refine Coroutine.Ensures.attempt (F := fun o d => Tracks n.host config key I d ∧
    ∀ state, o = .ok state → Tracks n.host config key (fun q => I q ∧ b ∈ q.bidders) d)
    (fun c o d hc hends => ⟨(hn.stable hI).ends hc hends, ?_⟩) fun o => ?_
  · rintro state rfl
    exact hstate b c state d hc hends
  · cases o with
    | error e => exact Coroutine.ensures_pure fun c hc => hc.1
    | ok state =>
      dsimp only
      split
      · exact Coroutine.ensures_pure fun c hc => hc.1
      · refine ((hseal b).mono (fun c hc => hc.2 state rfl) fun _ _ hd => hd).bind fun stored => ?_
        cases stored with
        | none => exact Coroutine.ensures_pure fun c hc => hc.mono fun _ h => h.1
        | some payload =>
          refine Coroutine.Ensures.attempt (F := fun o d =>
            Tracks n.host config key (fun q => I q ∧ b ∈ q.bidders) d ∧
            ∀ y, o = .ok y → ∃ x, g.decode x = .ok y) (fun c o d hc hends => ⟨?_, ?_⟩) fun o => ?_
          · exact (hn.stable hentered).ends hc hends
          · rintro y rfl
            have hopened : Tracks n.host config key
                (fun q => (I q ∧ b ∈ q.bidders) ∧ ∃ x, g.decode x = .ok y) d :=
              Generation.opened hn hentered payload.ciphertext c _ d hc hends
            obtain ⟨q, -, -, hdecode⟩ := hopened.round
            exact hdecode
          · cases o with
            | error e => exact Coroutine.ensures_pure fun c hc => hc.1.mono fun _ h => h.1
            | ok y =>
              intro c r d hc hends
              obtain ⟨x, hdecode⟩ := hc.2 y rfl
              exact htry b x y result hdecode c r d hc.1 hends

theorem Network.Shows.ok {shown : Int → Option RoundKey} {i : Int} {b : Address}
    {a : Except Rejection (Option Seal)} (hkey : shown i = some key)
    (h : n.Shows c shown i b a) : ∃ x, a = .ok x := by
  unfold Network.Shows at h
  rw [hkey] at h
  rcases h with h | ⟨-, h⟩
  · exact ⟨_, h⟩
  · exact ⟨_, h⟩

theorem Network.Shared.firstGeneration (hn : n.Shared id) (hI : Steady I) {deps : KeeperDeps}
    (result : KeeperResult) (b : Address) :
    Coroutine.Ensures n.Reliable (Tracks n.host config (.v1 id) I)
      (keepBidder deps id.toNat result b) (fun _ => Tracks n.host config (.v1 id) I)
      (ReportsOneOf revealAborts) := by
  rw [keepBidder_eq]
  refine @Generation.outcome n config (.v1 id) I _ _ (Keeper.firstGeneration id.toNat) deps hn hI
    (fun b c state d hc hends => ?_) (fun b => ?_)
    (fun b x y result hdecode => hn.tryReveal hI hdecode result) result b
  · obtain ⟨c', hc', hd, rfl, hread⟩ :=
      @Network.Shared.served n config (.v1 id) I c d hn hI hc _ _ (Coroutine.ends_request.mp hends)
    obtain ⟨q, hq, hIq⟩ := hd.round
    refine ⟨hd.sound, hd.policed, q, hq, hIq, ?_⟩
    obtain ⟨round, hround, rfl⟩ := hd.sound.world.of_view_v1 hq
    refine ((hd.sound.world.views _ _ hq).entered b).mpr ?_
    rw [n.encoder.u64_toNat, Option.bind_some] at hread
    cases hstored : d.2.world.store.state id b with
    | none =>
      rw [hstored] at hread
      obtain ⟨e, he⟩ := hread
      cases he
    | some state => simp [Round.view, hstored]
  · refine @Network.Shared.asks n config (.v1 id) _ _ hn (hI.and (steady_entered b))
      (.getSeal id.toNat b) fun c a d hc hserves => ?_
    exact Network.Shows.ok (n.encoder.u64_map id RoundKey.v1) hserves.2

theorem Network.Shared.secondGeneration (hn : n.Shared id) (hI : Steady I) {deps : KeeperDeps}
    (result : KeeperResult) (b : Address) :
    Coroutine.Ensures n.Reliable (Tracks n.host config (.v2 id) I)
      (keepSubmission deps id.toNat result b) (fun _ => Tracks n.host config (.v2 id) I)
      (ReportsOneOf revealAborts) := by
  rw [keepSubmission_eq]
  refine @Generation.outcome n config (.v2 id) I _ _ (Keeper.secondGeneration deps id.toNat) deps
    hn hI (fun b c state d hc hends => ?_) (fun b => ?_)
    (fun b x y result hdecode => hn.tryRevealV2 hI hdecode result) result b
  · obtain ⟨c', hc', hd, rfl, hread⟩ :=
      @Network.Shared.served n config (.v2 id) I c d hn hI hc _ _ (Coroutine.ends_request.mp hends)
    obtain ⟨q, hq, hIq⟩ := hd.round
    refine ⟨hd.sound, hd.policed, q, hq, hIq, ?_⟩
    obtain ⟨round, hround, rfl⟩ := World.of_view_v2 hq
    refine ((hd.sound.world.views _ _ hq).entered b).mpr ?_
    rw [n.encoder.u64_toNat, Option.bind_some] at hread
    cases hstored : d.2.world.store.submissionV2 id b with
    | none =>
      rw [hstored] at hread
      obtain ⟨e, he⟩ := hread
      cases he
    | some state => simp [RoundV2.view, hstored]
  · refine @Network.Shared.asks n config (.v2 id) _ _ hn (hI.and (steady_entered b))
      (.getSealV2 id.toNat b) fun c a d hc hserves => ?_
    exact Network.Shows.ok (n.encoder.u64_map id RoundKey.v2) hserves.2

theorem Network.Shared.bidders (hn : n.Shared id) (hI : Steady I) :
    Coroutine.Ensures n.Reliable (Tracks n.host config (.v1 id) I) (ask (.bidders id.toNat))
      (fun _ => Tracks n.host config (.v1 id) I) E := by
  refine @Network.Shared.asks n config (.v1 id) I E hn hI (.bidders id.toNat)
    fun c a d hc hserves => ?_
  obtain ⟨-, hread⟩ := hserves
  obtain ⟨r, hr, -⟩ := hc.round
  obtain ⟨round, hround, rfl⟩ := hc.sound.world.of_view_v1 hr
  rw [n.encoder.u64_toNat, Option.bind_some, hround, Option.map_some] at hread
  exact ⟨round.bidders, hread.some⟩

theorem Network.Shared.getBiddersV2 (hn : n.Shared id) (hI : Steady I) :
    Coroutine.Ensures n.Reliable (Tracks n.host config (.v2 id) I)
      (ask (.getBiddersV2 id.toNat)) (fun _ => Tracks n.host config (.v2 id) I) E := by
  refine @Network.Shared.asks n config (.v2 id) I E hn hI (.getBiddersV2 id.toNat)
    fun c a d hc hserves => ?_
  obtain ⟨-, hread⟩ := hserves
  obtain ⟨r, hr, -⟩ := hc.round
  obtain ⟨round, hround, rfl⟩ := World.of_view_v2 hr
  rw [n.encoder.u64_toNat, Option.bind_some, hround, Option.map_some] at hread
  exact ⟨round.bidders, hread.some⟩

theorem Network.Shared.keepRevealing (hn : n.Shared id) (hI : Steady I) {deps : KeeperDeps}
    (result : KeeperResult) (round : Round) :
    Coroutine.Ensures n.Reliable (Tracks n.host config (.v1 id) I)
      (keepRevealing deps id.toNat result round) (fun _ => Tracks n.host config (.v1 id) I)
      (ReportsOneOf revealAborts) := by
  unfold Keeper.keepRevealing
  split
  · refine (hn.bidders hI).bind fun bidders => ?_
    refine (Coroutine.ensures_foldlM (hn.firstGeneration hI) bidders result).bind fun result => ?_
    refine (hn.getRound hI).bind fun last => ?_
    exact Coroutine.ensures_pure fun c hc => hc.mono fun _ h => h.1
  · exact Coroutine.ensures_pure fun c hc => hc

theorem Network.Shared.keepRevealingV2 (hn : n.Shared id) (hI : Steady I) {deps : KeeperDeps}
    (result : KeeperResult) (round : RoundV2) :
    Coroutine.Ensures n.Reliable (Tracks n.host config (.v2 id) I)
      (keepRevealingV2 deps id.toNat result round) (fun _ => Tracks n.host config (.v2 id) I)
      (ReportsOneOf revealAborts) := by
  unfold Keeper.keepRevealingV2
  split
  · refine (hn.getBiddersV2 hI).bind fun bidders => ?_
    refine (Coroutine.ensures_foldlM (hn.secondGeneration hI) bidders result).bind fun result => ?_
    refine (hn.getRoundV2 hI).bind fun last => ?_
    exact Coroutine.ensures_pure fun c hc => hc.mono fun _ h => h.1
  · exact Coroutine.ensures_pure fun c hc => hc

/-! ## Keeping -/

/-- What a keep pass can end with. -/
def keepAborts (key : RoundKey) : List Error := openAborts key ++ revealAborts

theorem ReportsOneOf.left {errors more : List Error} {e : Rejection}
    (h : ReportsOneOf errors e) : ReportsOneOf (errors ++ more) e :=
  h.imp fun _ he => ⟨List.mem_append_left _ he.1, he.2⟩

theorem ReportsOneOf.right {errors more : List Error} {e : Rejection}
    (h : ReportsOneOf more e) : ReportsOneOf (errors ++ more) e :=
  h.imp fun _ he => ⟨List.mem_append_right _ he.1, he.2⟩

theorem Network.Shared.available (hn : n.Shared key.id) (hI : Steady I) (round : UInt64)
    (maxWait : Nat) :
    Coroutine.Ensures n.Reliable (Tracks n.host config key I)
      (Keeper.call (ask (.waitForRound round maxWait)))
      (fun _ => Tracks n.host config key I) E := by
  refine Network.Shared.call hn (fun _ => hI) ?_
  refine @Network.Shared.asks n config key I E hn hI (.waitForRound round maxWait)
    fun c a d hc hserves => ?_
  obtain ⟨-, b, rfl, -⟩ := hserves
  exact ⟨b, rfl⟩

/-- The call that an opening request makes. -/
theorem call_openReveal {signature : Bytes} (hlength : signature.length = 96) :
    n.call (.openReveal id.toNat signature) =
      some (RoundKey.openReveal ⟨signature, hlength⟩ (.v1 id)) := by
  rw [Network.call, n.encoder.u64_toNat, n.encoder.bytesN_of_length hlength]
  rfl

theorem call_openRevealV2 {signature : Bytes} (hlength : signature.length = 96) :
    n.call (.openRevealV2 id.toNat signature) =
      some (RoundKey.openReveal ⟨signature, hlength⟩ (.v2 id)) := by
  rw [Network.call, n.encoder.u64_toNat, n.encoder.bytesN_of_length hlength]
  rfl

/-- **The first generation.** -/
theorem Network.Shared.keepRound (hn : n.Shared id) (hI : Steady I) {deps : KeeperDeps} :
    Coroutine.Ensures n.Reliable (Tracks n.host config (.v1 id) I) (keepRound deps id.toNat)
      (fun _ => Tracks n.host config (.v1 id) I) (ReportsOneOf (keepAborts (.v1 id))) := by
  have hrevealing : ∀ result round, Coroutine.Ensures n.Reliable (Tracks n.host config (.v1 id) I)
      (Keeper.keepRevealing deps id.toNat result round)
      (fun _ => Tracks n.host config (.v1 id) I) (ReportsOneOf (keepAborts (.v1 id))) :=
    fun result round => (hn.keepRevealing hI result round).weaken fun _ => ReportsOneOf.right
  have hread : Coroutine.Ensures n.Reliable (Tracks n.host config (.v1 id) I)
      (ask (.getRound id.toNat)) (fun _ => Tracks n.host config (.v1 id) I)
      (ReportsOneOf (keepAborts (.v1 id))) :=
    (hn.getRound hI).mono (fun _ hc => hc) fun _ _ hc => hc.mono fun _ h => h.1
  refine hread.bind fun round => ?_
  split
  · refine (@Network.Shared.available n config (.v1 id) I _ hn hI _ _).bind fun available => ?_
    split
    · exact Coroutine.ensures_pure fun c hc => hc
    · refine (@Network.Shared.fetchSignature n config (.v1 id) I _ hn hI _ _).bind fun o => ?_
      cases o with
      | none => exact Coroutine.ensures_pure fun c hc => hc.1
      | some signature =>
        refine Coroutine.Ensures.given (fun hlength => ?_) fun c hc => ⟨hc.1, hc.2 _ rfl⟩
        have hopen := @Network.Shared.opening n config (.v1 id) I hn hI
          (ask (.openReveal id.toNat signature)) ⟨signature, hlength⟩
          (fun c e d hc hends => Network.Shared.refused hn hI hc (call_openReveal hlength)
            (Coroutine.ends_request.mp hends)) (KeeperResult.fresh id.toNat)
        refine (hopen.weaken fun _ => ReportsOneOf.left).bind fun result => ?_
        exact hread.bind fun round => hrevealing result round
  · exact hrevealing _ _

/-- The stored round has the version of the record that was read. -/
def SameVersion (id : UInt64) (round : RoundV2) (c : Scene) : Prop :=
  ∃ stored, c.2.world.store.roundV2 id = some stored ∧
    stored.protocolVersion = round.protocolVersion

theorem Network.Shared.getVersion (hn : n.Shared id) (hI : Steady I) :
    Coroutine.Ensures n.Reliable (Tracks n.host config (.v2 id) I) (ask (.getRoundV2 id.toNat))
      (fun round c => Tracks n.host config (.v2 id) I c ∧ SameVersion id round c) E := by
  refine Coroutine.ensures_request fun c a d hc ha => ?_
  obtain ⟨c', hc', -, rfl, hread⟩ :=
    @Network.Shared.served n config (.v2 id) I c d hn hI hc _ _ ha
  obtain ⟨r, hr, -⟩ := hc'.round
  obtain ⟨round, hround, -⟩ := World.of_view_v2 hr
  rw [n.encoder.u64_toNat, Option.bind_some, hround] at hread
  obtain rfl := hread.some
  exact ⟨hc', round, hround, rfl⟩

/-- A round of the third version has its policy, and there are no other versions. -/
theorem Network.Shared.readKeeperRevealState (hn : n.Shared id) (hI : Steady I)
    {deps : KeeperDeps} (round : RoundV2) :
    Coroutine.Ensures n.Reliable
      (fun c => Tracks n.host config (.v2 id) I c ∧ SameVersion id round c)
      (readKeeperRevealState deps id.toNat round)
      (fun _ => Tracks n.host config (.v2 id) I) E := by
  unfold Keeper.readKeeperRevealState
  split
  · exact Coroutine.ensures_pure fun c hc => hc.1
  · next hsecond =>
    split
    · next hthird =>
      refine Coroutine.Ensures.map (A := fun _ => Tracks n.host config (.v2 id) I)
        (Coroutine.ensures_request fun c a d hc ha => ?_) fun _ _ hd => hd
      obtain ⟨hc, stored, hstored, hversion⟩ := hc
      obtain ⟨c', helapses, hserves, -⟩ := ha
      obtain ⟨events, hrun, hkept⟩ := hn.others _ _ helapses
      obtain ⟨stored', hstored', _, _, _, _, rfl⟩ := hrun.roundV2 hc.sound hstored
      have hc' := hc.run hI hrun hkept
      obtain ⟨state, hstate⟩ : ∃ state, c'.2.world.store.revealV3 id = some state :=
        Option.isSome_iff_exists.mp (hc'.policed _ hstored' (hversion.trans hthird))
      obtain ⟨rfl, hread⟩ := hserves
      rw [n.encoder.u64_toNat, Option.bind_some, hstate] at hread
      obtain rfl := hread.some
      exact hc'
    · next hthird =>
      intro c r d hc hends
      obtain ⟨hc, stored, hstored, hversion⟩ := hc
      rcases (hc.sound.world.consistent id stored hstored).version with h | h
      · exact absurd (hversion.symm.trans h) hsecond
      · exact absurd (hversion.symm.trans h) hthird

/-- **The second and third generation.** -/
theorem Network.Shared.keepRoundV2 (hn : n.Shared id) (hI : Steady I) {deps : KeeperDeps} :
    Coroutine.Ensures n.Reliable (Tracks n.host config (.v2 id) I) (keepRoundV2 deps id.toNat)
      (fun _ => Tracks n.host config (.v2 id) I) (ReportsOneOf (keepAborts (.v2 id))) := by
  have hrevealing : ∀ result round, Coroutine.Ensures n.Reliable (Tracks n.host config (.v2 id) I)
      (Keeper.keepRevealingV2 deps id.toNat result round)
      (fun _ => Tracks n.host config (.v2 id) I) (ReportsOneOf (keepAborts (.v2 id))) :=
    fun result round => (hn.keepRevealingV2 hI result round).weaken fun _ => ReportsOneOf.right
  have hread : Coroutine.Ensures n.Reliable (Tracks n.host config (.v2 id) I)
      (ask (.getRoundV2 id.toNat)) (fun _ => Tracks n.host config (.v2 id) I)
      (ReportsOneOf (keepAborts (.v2 id))) :=
    (hn.getRoundV2 hI).mono (fun _ hc => hc) fun _ _ hc => hc.mono fun _ h => h.1
  refine (hn.getVersion hI).bind fun round => ?_
  split
  · have hstate := @Network.Shared.call n config (.v2 id) (ReportsOneOf (keepAborts (.v2 id)))
      _ hn _ _ (fun _ => I) (fun _ => hI) (@Network.Shared.readKeeperRevealState n config id I
        (ReportsOneOf (keepAborts (.v2 id))) hn hI deps round)
    refine hstate.bind fun state => ?_
    refine Coroutine.Ensures.bind (A := fun _ => Tracks n.host config (.v2 id) I)
      (Coroutine.ensures_inspect fun c hc => hc) fun now => ?_
    split
    · exact Coroutine.ensures_pure fun c hc => hc
    · refine (@Network.Shared.available n config (.v2 id) I _ hn hI _ _).bind fun available => ?_
      split
      · exact Coroutine.ensures_pure fun c hc => hc
      · refine (@Network.Shared.fetchSignature n config (.v2 id) I _ hn hI _ _).bind fun o => ?_
        cases o with
        | none => exact Coroutine.ensures_pure fun c hc => hc.1
        | some signature =>
          refine Coroutine.Ensures.given (fun hlength => ?_) fun c hc => ⟨hc.1, hc.2 _ rfl⟩
          have hopen := @Network.Shared.opening n config (.v2 id) I hn hI
            (ask (.openRevealV2 id.toNat signature)) ⟨signature, hlength⟩
            (fun c e d hc hends => Network.Shared.refused hn hI hc (call_openRevealV2 hlength)
              (Coroutine.ends_request.mp hends)) (KeeperResult.fresh id.toNat)
          refine (hopen.weaken fun _ => ReportsOneOf.left).bind fun result => ?_
          exact hread.bind fun round => hrevealing result round
  · exact (hrevealing _ _).mono (fun c hc => hc.1) fun _ _ hd => hd

/-! ## Closing -/

/-- What a close pass can end with: the first generation does not expect a settled round when it
clears. -/
def closeAborts : RoundKey → List Error
  | .v1 _ => [.AlreadySettled]
  | .v2 _ => []

theorem ensures_changeGuard {P : Scene → Prop} (hP : Coroutine.Stable n.Reliable P)
    (deps : KeeperDeps) (f : SettlementGuard → SettlementGuard) :
    Coroutine.Ensures n.Reliable P (changeGuard deps f) (fun _ => P) E := by
  unfold changeGuard
  split
  · exact Coroutine.ensures_change fun c hc => hP.change hc fun m => { m with guard := f m.guard }
  · exact Coroutine.ensures_pure fun c hc => hc

theorem ensures_reserve {P : Scene → Prop} (hP : Coroutine.Stable n.Reliable P)
    (deps : KeeperDeps) (roundId : Int) :
    Coroutine.Ensures n.Reliable P (submitSettlement.reserve deps roundId) (fun _ => P) E := by
  unfold submitSettlement.reserve
  split
  · refine Coroutine.Ensures.bind (A := fun _ => P) (Coroutine.ensures_inspect fun c hc => hc)
      fun check => ?_
    refine (ensures_changeGuard hP deps _).bind fun _ => ?_
    split
    · exact Coroutine.ensures_pure fun c hc => hc
    · exact (ensures_changeGuard hP deps _).bind fun _ => Coroutine.ensures_pure fun c hc => hc
  · exact Coroutine.ensures_pure fun c hc => hc

/-- The guard takes part in a settlement, but the errors are those of the call. -/
theorem ensures_submitSettlement {P : Scene → Prop} (hP : Coroutine.Stable n.Reliable P)
    {submit : Pass Unit}
    (hsubmit : ∀ c e d, P c → submit.Ends n.Reliable c (.error e) d → E e)
    (deps : KeeperDeps) (roundId : Int) :
    Coroutine.Ensures n.Reliable P (submitSettlement deps roundId submit) (fun _ => P) E := by
  refine (ensures_reserve hP deps roundId).bind fun skipped => ?_
  split
  · exact Coroutine.ensures_pure fun c hc => hc
  · refine Coroutine.Ensures.attempt (F := fun o d => P d ∧ ∀ e, o = .error e → E e)
      (fun c o d hc hends => ⟨hP.ends hc hends, ?_⟩) fun o => ?_
    · rintro e rfl
      exact hsubmit c e d hc hends
    · cases o with
      | ok _ =>
        refine ((ensures_changeGuard hP deps _).mono (fun c hc => hc.1) fun _ _ hd => hd).bind
          fun _ => ?_
        exact Coroutine.ensures_pure fun c hc => hc
      | error e =>
        refine Coroutine.Ensures.given (fun he => ?_) fun c hc => ⟨hc.1, hc.2 e rfl⟩
        exact (ensures_changeGuard hP deps _).bind fun _ => Coroutine.ensures_fail he

/-- **A round that was cleared is settled or was settled.** Nothing else can be reported. -/
theorem Network.Shared.settling (hn : n.Shared key.id) (hI : Steady I) {q : Request}
    (hq : n.call q = some key.settle) {deps : KeeperDeps} {roundId : Int} {submit : Pass Unit}
    (hsubmit : ∀ c e d, submit.Ends n.Reliable c (.error e) d → n.Reliable c q (.error e) d)
    (name : String) (result : CloseResult) :
    Coroutine.Ensures n.Reliable
      (Tracks n.host config key fun r => I r ∧ Status.Cleared.Leads r.status)
      (trySettle deps roundId submit name result)
      (fun _ => Tracks n.host config key I) E := by
  have hcleared := hI.and (steady_leads .Cleared)
  have hP := @Network.Shared.stable n config key _ hn hcleared
  have hsettle := @Network.Shared.call n config key (ReportsOneOf settleSkips) Bool hn _
    (submitSettlement deps roundId submit) _ (fun _ => hcleared)
    (ensures_submitSettlement hP (fun c e d hc hends => ?_) deps roundId)
  · refine Coroutine.Ensures.attempt (F := fun o d => Tracks n.host config key I d ∧
      ∀ e, o = .error e → ReportsOneOf settleSkips e) (fun c o d hc hends => ⟨?_, ?_⟩)
      fun o => ?_
    · exact (hP.ends hc hends).mono fun _ h => h.1
    · rintro e rfl
      exact hsettle c _ d hc hends
    · cases o with
      | ok settled => cases settled <;> exact Coroutine.ensures_pure fun c hc => hc.1
      | error e =>
        refine Coroutine.Ensures.given (fun he => ?_) fun c hc => ⟨hc.1, hc.2 e rfl⟩
        obtain ⟨error, herror, hreports⟩ := he
        dsimp only
        rw [if_pos ((reported_isOneOf hreports).mpr herror)]
        exact Coroutine.ensures_pure fun c hc => hc
  · obtain ⟨w, now, tx, error, r, hw, -, hr, ⟨-, hleads⟩, hinvoke, hreports⟩ :=
      hn.refused hcleared hc hq (hsubmit c e d hends)
    obtain ⟨hnot, rfl⟩ := hw.refused_settle hr hinvoke
    refine ⟨_, ?_, hreports⟩
    rw [hleads.resolve_left hnot]
    decide

/-- A round that was being revealed is still in its window, or somebody ended it. -/
theorem leads_clearError {s : Status} (h : Status.Revealing.Leads s) :
    s.clearError ∈ [Error.AlreadyCleared, .AlreadySettled, .RevealStillOpen, .RoundVoided] := by
  cases s <;> simp_all [Status.Leads, Status.clearError]

theorem Network.Shared.refusedClear (hn : n.Shared key.id) (hI : Steady I) {q : Request}
    (hq : n.call q = some key.clear)
    (h : Tracks n.host config key (fun r => I r ∧ Status.Revealing.Leads r.status) c)
    {e : Rejection} (ha : n.Reliable c q (.error e) d) :
    ReportsOneOf [.AlreadyCleared, .AlreadySettled, .RevealStillOpen, .RoundVoided] e := by
  obtain ⟨w, now, tx, error, r, hw, -, hr, ⟨-, hleads⟩, hinvoke, hreports⟩ :=
    hn.refused (hI.and (steady_leads .Revealing)) h hq ha
  obtain rfl := hw.refused_clear hr hinvoke
  exact ⟨_, leads_clearError hleads, hreports⟩

theorem call_clear : n.call (.clear id.toNat) = some (RoundKey.clear (.v1 id)) := by
  rw [Network.call, n.encoder.u64_toNat]
  rfl

theorem call_clearV2 : n.call (.clearV2 id.toNat) = some (RoundKey.clear (.v2 id)) := by
  rw [Network.call, n.encoder.u64_toNat]
  rfl

theorem call_settle : n.call (.settle id.toNat) = some (RoundKey.settle (.v1 id)) := by
  rw [Network.call, n.encoder.u64_toNat]
  rfl

theorem call_settleV2 : n.call (.settleV2 id.toNat) = some (RoundKey.settle (.v2 id)) := by
  rw [Network.call, n.encoder.u64_toNat]
  rfl

theorem Network.Shared.tryClear (hn : n.Shared id) (hI : Steady I) (result : CloseResult) :
    Coroutine.Ensures n.Reliable
      (Tracks n.host config (.v1 id) fun r => I r ∧ Status.Revealing.Leads r.status)
      (tryClear id.toNat result) (fun _ => Tracks n.host config (.v1 id) I)
      (ReportsOneOf (closeAborts (.v1 id))) := by
  refine Coroutine.Ensures.attempt (F := fun o d => Tracks n.host config (.v1 id) I d ∧
    ∀ e, o = .error e → ReportsOneOf
      [.AlreadyCleared, .AlreadySettled, .RevealStillOpen, .RoundVoided] e)
    (fun c o d hc hends => ⟨?_, ?_⟩) fun o => ?_
  · exact (@Network.Shared.stable n config (.v1 id) I hn hI).ends (hc.mono fun _ h => h.1) hends
  · rintro e rfl
    exact Network.Shared.refusedClear hn hI call_clear hc (Coroutine.ends_request.mp hends)
  · cases o with
    | ok winner => exact Coroutine.ensures_pure fun c hc => hc.1
    | error e =>
      refine Coroutine.Ensures.given (fun he => ?_) fun c hc => ⟨hc.1, hc.2 e rfl⟩
      obtain ⟨error, herror, hreports⟩ := he
      dsimp only
      split
      · exact Coroutine.ensures_pure fun c hc => hc
      · next hnot =>
        rw [reported_isOneOf hreports] at hnot
        refine Coroutine.ensures_fail ⟨error, ?_, hreports⟩
        simp_all [closeAborts]

theorem Network.Shared.tryClearV2 (hn : n.Shared id) (hI : Steady I) (result : CloseResult) :
    Coroutine.Ensures n.Reliable
      (Tracks n.host config (.v2 id) fun r => I r ∧ Status.Revealing.Leads r.status)
      (tryClearV2 id.toNat result) (fun _ => Tracks n.host config (.v2 id) I)
      (ReportsOneOf (closeAborts (.v2 id))) := by
  refine Coroutine.Ensures.attempt (F := fun o d => Tracks n.host config (.v2 id) I d ∧
    ∀ e, o = .error e → ReportsOneOf
      [.AlreadyCleared, .AlreadySettled, .RevealStillOpen, .RoundVoided] e)
    (fun c o d hc hends => ⟨?_, ?_⟩) fun o => ?_
  · exact (@Network.Shared.stable n config (.v2 id) I hn hI).ends (hc.mono fun _ h => h.1) hends
  · rintro e rfl
    exact Network.Shared.refusedClear hn hI call_clearV2 hc (Coroutine.ends_request.mp hends)
  · cases o with
    | ok winner => exact Coroutine.ensures_pure fun c hc => hc.1
    | error e =>
      refine Coroutine.Ensures.given (fun he => ?_) fun c hc => ⟨hc.1, hc.2 e rfl⟩
      obtain ⟨error, herror, hreports⟩ := he
      dsimp only
      split
      · exact Coroutine.ensures_pure fun c hc => hc
      · next hnot =>
        rw [reported_isOneOf hreports] at hnot
        simp_all

theorem Network.Shared.closeSettling (hn : n.Shared id) (hI : Steady I) {deps : KeeperDeps}
    (result : CloseResult) (round : Round) :
    Coroutine.Ensures n.Reliable
      (Tracks n.host config (.v1 id) fun r => I r ∧ round.status.Leads r.status)
      (closeSettling deps id.toNat result round) (fun _ => Tracks n.host config (.v1 id) I)
      E := by
  have hdone : ∀ value : CloseResult, Coroutine.Ensures n.Reliable
      (Tracks n.host config (.v1 id) fun r => I r ∧ round.status.Leads r.status)
      (pure value) (fun _ => Tracks n.host config (.v1 id) I) E :=
    fun value => Coroutine.ensures_pure fun c hc => hc.mono fun _ h => h.1
  unfold Keeper.closeSettling
  split
  · next hs =>
    rw [hs]
    refine (@Network.Shared.settling n config (.v1 id) I E hn hI _ call_settle _ _ _
      (fun c e d hends => Coroutine.ends_request.mp hends) "settle" result).bind fun result => ?_
    refine (hn.getRound hI).bind fun last => ?_
    exact Coroutine.ensures_pure fun c hc => hc.mono fun _ h => h.1
  · exact hdone _
  · exact hdone _
  · exact hdone _

theorem Network.Shared.closeSettlingV2 (hn : n.Shared id) (hI : Steady I) {deps : KeeperDeps}
    (result : CloseResult) (round : RoundV2) :
    Coroutine.Ensures n.Reliable
      (Tracks n.host config (.v2 id) fun r => I r ∧ round.status.Leads r.status)
      (closeSettlingV2 deps id.toNat result round) (fun _ => Tracks n.host config (.v2 id) I)
      E := by
  have hdone : ∀ value : CloseResult, Coroutine.Ensures n.Reliable
      (Tracks n.host config (.v2 id) fun r => I r ∧ round.status.Leads r.status)
      (pure value) (fun _ => Tracks n.host config (.v2 id) I) E :=
    fun value => Coroutine.ensures_pure fun c hc => hc.mono fun _ h => h.1
  unfold Keeper.closeSettlingV2
  split
  · next hs =>
    rw [hs]
    refine (@Network.Shared.settling n config (.v2 id) I E hn hI _ call_settleV2 _ _ _
      (fun c e d hends => Coroutine.ends_request.mp hends) "settle_v2" result).bind
      fun result => ?_
    refine (hn.getRoundV2 hI).bind fun last => ?_
    exact Coroutine.ensures_pure fun c hc => hc.mono fun _ h => h.1
  · split
    · exact hdone _
    · exact hdone _
  · exact hdone _
  · exact hdone _

theorem Network.Shared.closeRound (hn : n.Shared id) (hI : Steady I) {deps : KeeperDeps} :
    Coroutine.Ensures n.Reliable (Tracks n.host config (.v1 id) I) (closeRound deps id.toNat)
      (fun _ => Tracks n.host config (.v1 id) I) (ReportsOneOf (closeAborts (.v1 id))) := by
  refine (hn.getRound hI).bind fun round => ?_
  split
  · next hs =>
    rw [hs]
    refine Coroutine.Ensures.bind (A := fun _ => Tracks n.host config (.v1 id)
      fun r => I r ∧ Status.Revealing.Leads r.status)
      (Coroutine.ensures_inspect fun c hc => hc) fun now => ?_
    split
    · exact Coroutine.ensures_pure fun c hc => hc.mono fun _ h => h.1
    · refine (hn.tryClear hI _).bind fun result => ?_
      exact (hn.getRound hI).bind fun last => hn.closeSettling hI result last
  · exact hn.closeSettling hI _ _

theorem Network.Shared.closeRoundV2 (hn : n.Shared id) (hI : Steady I) {deps : KeeperDeps} :
    Coroutine.Ensures n.Reliable (Tracks n.host config (.v2 id) I) (closeRoundV2 deps id.toNat)
      (fun _ => Tracks n.host config (.v2 id) I) (ReportsOneOf (closeAborts (.v2 id))) := by
  refine (hn.getRoundV2 hI).bind fun round => ?_
  split
  · next hs =>
    rw [hs]
    refine Coroutine.Ensures.bind (A := fun _ => Tracks n.host config (.v2 id)
      fun r => I r ∧ Status.Revealing.Leads r.status)
      (Coroutine.ensures_inspect fun c hc => hc) fun now => ?_
    split
    · exact Coroutine.ensures_pure fun c hc => hc.mono fun _ h => h.1
    · refine (hn.tryClearV2 hI _).bind fun result => ?_
      exact (hn.getRoundV2 hI).bind fun last => hn.closeSettlingV2 hI result last
  · exact hn.closeSettlingV2 hI _ _

/-! ## Voiding and watching -/

theorem mem_voidErrors (s : Status) : s.voidError ∈
    [Error.NotVoidable, .WrongStatus, .AlreadyCleared, .AlreadySettled, .RoundVoided] := by
  cases s <;> decide

theorem call_void : n.call (.void id.toNat) = some (RoundKey.void (.v1 id)) := by
  rw [Network.call, n.encoder.u64_toNat]
  rfl

theorem call_voidV2 : n.call (.voidV2 id.toNat) = some (RoundKey.void (.v2 id)) := by
  rw [Network.call, n.encoder.u64_toNat]
  rfl

theorem Network.Shared.readKeeperRound {deps : KeeperDeps} (hn : n.Shared id) (hI : Steady I) :
    Coroutine.Ensures n.Reliable (Tracks n.host config (deps.protocolVersion.key id) I)
      (readKeeperRound deps id.toNat)
      (fun _ => Tracks n.host config (deps.protocolVersion.key id) I) E := by
  unfold Keeper.readKeeperRound
  cases deps.protocolVersion with
  | v1 => exact (hn.getRound hI).map fun _ _ hc => hc.mono fun _ h => h.1
  | v2 => exact (hn.getRoundV2 hI).map fun _ _ hc => hc.mono fun _ h => h.1

theorem Network.Shared.refusedVoid {deps : KeeperDeps} (hn : n.Shared id) (hI : Steady I)
    (h : Tracks n.host config (deps.protocolVersion.key id) I c) {e : Rejection}
    (hends : (submitVoid deps id.toNat).Ends n.Reliable c (.error e) d) :
    ReportsOneOf [.NotVoidable, .WrongStatus, .AlreadyCleared, .AlreadySettled, .RoundVoided]
      e := by
  unfold submitVoid at hends
  cases hversion : deps.protocolVersion with
  | v1 =>
    rw [hversion] at h hends
    obtain ⟨w, now, tx, error, r, hw, -, hr, -, hinvoke, hreports⟩ :=
      @Network.Shared.refused n config (.v1 id) I c d hn hI h _ _ call_void _
        (Coroutine.ends_request.mp hends)
    exact ⟨_, hw.refused_void hr hinvoke ▸ mem_voidErrors _, hreports⟩
  | v2 =>
    rw [hversion] at h hends
    obtain ⟨w, now, tx, error, r, hw, -, hr, -, hinvoke, hreports⟩ :=
      @Network.Shared.refused n config (.v2 id) I c d hn hI h _ _ call_voidV2 _
        (Coroutine.ends_request.mp hends)
    exact ⟨_, hw.refused_void hr hinvoke ▸ mem_voidErrors _, hreports⟩

theorem Network.Shared.voidIfStale {deps : KeeperDeps} (hn : n.Shared id) (hI : Steady I) :
    Coroutine.Ensures n.Reliable (Tracks n.host config (deps.protocolVersion.key id) I)
      (voidIfStale deps id.toNat)
      (fun _ => Tracks n.host config (deps.protocolVersion.key id) I) E := by
  refine (hn.readKeeperRound hI).bind fun round => ?_
  split
  · exact Coroutine.ensures_pure fun c hc => hc
  · refine Coroutine.Ensures.bind
      (A := fun _ => Tracks n.host config (deps.protocolVersion.key id) I)
      (Coroutine.ensures_inspect fun c hc => hc) fun now => ?_
    dsimp only
    split
    · exact Coroutine.ensures_pure fun c hc => hc
    · refine Coroutine.Ensures.attempt
        (F := fun o d => Tracks n.host config (deps.protocolVersion.key id) I d ∧
          ∀ e, o = .error e → ReportsOneOf
            [.NotVoidable, .WrongStatus, .AlreadyCleared, .AlreadySettled, .RoundVoided] e)
        (fun c o d hc hends => ⟨?_, ?_⟩) fun o => ?_
      · have hstable := @Network.Shared.stable n config (deps.protocolVersion.key id) I
          (by rwa [ProtocolVersion.key_id]) hI
        exact hstable.ends hc hends
      · rintro e rfl
        exact hn.refusedVoid hI hc hends
      · refine Coroutine.Ensures.bind
          (A := fun _ => Tracks n.host config (deps.protocolVersion.key id) I) ?_ fun result => ?_
        · cases o with
          | ok _ => exact Coroutine.ensures_pure fun c hc => hc.1
          | error e =>
            refine Coroutine.Ensures.given (fun he => ?_) fun c hc => ⟨hc.1, hc.2 e rfl⟩
            obtain ⟨error, herror, hreports⟩ := he
            unfold voidIfStale.voidResult
            dsimp only
            rw [if_pos ((reported_isOneOf hreports).mpr herror)]
            exact Coroutine.ensures_pure fun c hc => hc
        · refine (hn.readKeeperRound hI).bind fun last => ?_
          exact Coroutine.ensures_pure fun c hc => hc

theorem Network.Shared.watchKeep {deps : KeeperDeps} (hn : n.Shared id) (hI : Steady I)
    (round : KeeperRound) :
    Coroutine.Ensures n.Reliable (Tracks n.host config (deps.protocolVersion.key id) I)
      (watchKeep deps id.toNat round)
      (fun _ => Tracks n.host config (deps.protocolVersion.key id) I)
      (ReportsOneOf (keepAborts (deps.protocolVersion.key id))) := by
  unfold Keeper.watchKeep
  split
  · refine Coroutine.Ensures.bind
      (A := fun _ => Tracks n.host config (deps.protocolVersion.key id) I) ?_ fun keep => ?_
    · refine @Network.Shared.call n config (deps.protocolVersion.key id) _ _
        (by rwa [ProtocolVersion.key_id]) _ _ (fun _ => I) (fun _ => hI) ?_
      cases deps.protocolVersion with
      | v1 => exact hn.keepRound hI
      | v2 => exact hn.keepRoundV2 hI
    · exact (hn.readKeeperRound hI).bind fun last => Coroutine.ensures_pure fun c hc => hc
  · exact Coroutine.ensures_pure fun c hc => hc

theorem Network.Shared.watchClose {deps : KeeperDeps} (hn : n.Shared id) (hI : Steady I)
    (round : KeeperRound) :
    Coroutine.Ensures n.Reliable (Tracks n.host config (deps.protocolVersion.key id) I)
      (watchClose deps id.toNat round)
      (fun _ => Tracks n.host config (deps.protocolVersion.key id) I)
      (ReportsOneOf (closeAborts (deps.protocolVersion.key id))) := by
  unfold Keeper.watchClose
  split
  · refine Coroutine.Ensures.bind
      (A := fun _ => Tracks n.host config (deps.protocolVersion.key id) I) ?_ fun close => ?_
    · refine @Network.Shared.call n config (deps.protocolVersion.key id) _ _
        (by rwa [ProtocolVersion.key_id]) _ _ (fun _ => I) (fun _ => hI) ?_
      cases deps.protocolVersion with
      | v1 => exact hn.closeRound hI
      | v2 => exact hn.closeRoundV2 hI
    · exact (hn.readKeeperRound hI).bind fun last => Coroutine.ensures_pure fun c hc => hc
  · exact Coroutine.ensures_pure fun c hc => hc

/-- What closing can end with is among what keeping can end with. -/
theorem closeAborts_subset (key : RoundKey) : closeAborts key ⊆ keepAborts key := by
  cases key <;> simp [closeAborts, keepAborts, openAborts, revealAborts]

theorem Network.Shared.watchRound {deps : KeeperDeps} (hn : n.Shared id) (hI : Steady I) :
    Coroutine.Ensures n.Reliable (Tracks n.host config (deps.protocolVersion.key id) I)
      (watchRound deps id.toNat)
      (fun _ => Tracks n.host config (deps.protocolVersion.key id) I)
      (ReportsOneOf (keepAborts (deps.protocolVersion.key id))) := by
  have hshared : n.Shared (deps.protocolVersion.key id).id := by rwa [ProtocolVersion.key_id]
  refine (hshared.call (fun _ => hI) (hn.voidIfStale hI)).bind fun voided => ?_
  refine (hn.readKeeperRound hI).bind fun round => ?_
  refine (hn.watchKeep hI round).bind fun kept => ?_
  refine Coroutine.Ensures.bind ((hn.watchClose hI kept.2).weaken fun e he => ?_) fun closed => ?_
  · exact he.imp fun _ h => ⟨closeAborts_subset _ h.1, h.2⟩
  · refine Coroutine.Ensures.bind
      (A := fun _ => Tracks n.host config (deps.protocolVersion.key id) I) ?_ fun _ => ?_
    · unfold watchMark
      split
      · exact ensures_changeGuard (hshared.stable hI) deps _
      · exact Coroutine.ensures_pure fun c hc => hc
    · exact Coroutine.ensures_pure fun c hc => hc

end

end SubRosa.Keeper
