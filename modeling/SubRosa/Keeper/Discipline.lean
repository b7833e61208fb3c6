import SubRosa.Keeper.WatchLoop

/-!
# What the passes do to the settlement guard and to the queue

Every pass keeps to any protocol that lets it ask for anything but a
settlement, mark rounds terminal, settle through `submitSettlement` and change
the queue without dropping an entry. One walk over the passes serves all such
protocols.
-/

namespace SubRosa.Keeper

open Coroutine

/-- The round a request settles. -/
def settles : Request → Option Int
  | .settle id => some id
  | .settleV2 id => some id
  | _ => none

/-! ## Entries of the queue -/

/-- No entry is dropped. -/
def KeepsEntries (f : StoreData → StoreData) : Prop :=
  ∀ d id, (d.getRound id).isSome = true → ((f d).getRound id).isSome = true

theorem StoreData.isSome_addRound {d : StoreData} {id : Nat} (extra : PartialRound) {id' : Nat}
    (h : (d.getRound id').isSome = true) : ((d.addRound id extra).getRound id').isSome = true := by
  rw [getRound_addRound]
  split
  · rfl
  · exact h

theorem addDiscovered_keeps (params : RunWatchLoopParams) (ids : List Int) :
    KeepsEntries (addDiscovered params ids) := by
  intro d id h
  induction ids generalizing d with
  | nil => exact h
  | cons next ids ih =>
    unfold addDiscovered
    split
    · exact ih _ (StoreData.isSome_addRound _ h)
    · exact h

theorem updateRound_keeps (id : Nat) (update : StoreData → PartialRound) :
    KeepsEntries fun d => d.updateRound id (update d) := by
  intro d id' h
  rw [StoreData.getRound_updateRound]
  split
  · next hid =>
    subst hid
    rw [Option.isSome_map]
    exact h
  · exact h

/-! ## What the passes do to the guard -/

/-- From any memory, the pass starts idle and follows the protocol. -/
structure Obeys {G α : Type} (p : Protocol Memory Request Request.Answer Rejection G)
    (x : Pass α) : Prop where
  follows : ∀ m, x.Follows p p.idle m

/-- A protocol that lets a pass do anything but settle outside `submitSettlement`, or change the
guard otherwise than by a terminal mark. -/
structure Guarding {G : Type} (p : Protocol Memory Request Request.Answer Rejection G) : Prop where
  refl : ∀ m, p.change p.idle m m p.idle
  store : ∀ (m : Memory) f, KeepsEntries f → p.change p.idle m { m with store := f m.store } p.idle
  asks : ∀ q, settles q = none → p.asks p.idle q
  create : ∀ (m : Memory) id, p.change p.idle m { m with guard := m.guard.getOrCreate id } p.idle
  terminal : ∀ (m : Memory) id reason,
    p.change p.idle m { m with guard := m.guard.markTerminal id reason } p.idle
  /-- The mode of a pass whose settlement is in flight. -/
  reserve : ∀ (m : Memory) id q, settles q = some id → m.guard.statusOf id = .pending →
    ∃ g, p.change p.idle m { m with guard := m.guard.markSubmitted id } g ∧ p.asks g q ∧
      ∀ r m', p.answers g q r m' →
        (r.isOk = true → p.change g m'
          { m' with guard := m'.guard.markTerminal id "settled on-chain" } p.idle) ∧
        ∀ e, r = .error e → p.change g m'
          { m' with guard := m'.guard.markRetryable id (errorName e) } p.idle

section

variable {G α β : Type} {p : Protocol Memory Request Request.Answer Rejection G}

theorem obeys_pure (a : α) : Obeys p (pure a) := ⟨fun _ => rfl⟩

theorem obeys_fail (e : Rejection) : Obeys p (.fail e : Pass α) := ⟨fun _ => rfl⟩

theorem obeys_done (r : Except Rejection α) : Obeys p (.done r) := ⟨fun _ => rfl⟩

theorem Obeys.bind {x : Pass α} {f : α → Pass β} (hx : Obeys p x) (hf : ∀ a, Obeys p (f a)) :
    Obeys p (x >>= f) := ⟨fun m => (hx.follows m).bind fun a => (hf a).follows⟩

theorem Obeys.attempt {x : Pass α} (hx : Obeys p x) : Obeys p x.attempt :=
  ⟨fun m => (hx.follows m).attempt⟩

theorem Obeys.map {x : Pass α} (hx : Obeys p x) (f : α → β) : Obeys p (f <$> x) :=
  hx.bind fun a => obeys_pure (f a)

theorem obeys_foldlM {f : β → α → Pass β} (hf : ∀ b a, Obeys p (f b a)) (l : List α) (b : β) :
    Obeys p (l.foldlM f b) := ⟨fun m => follows_foldlM (fun b a => (hf b a).follows) l b m⟩

theorem obeys_ite {c : Prop} [Decidable c] {x y : Pass α} (hx : Obeys p x) (hy : Obeys p y) :
    Obeys p (if c then x else y) := by
  split
  · exact hx
  · exact hy

namespace Guarding

variable (h : Guarding p)

include h

theorem ask {q : Request} (hq : settles q = none) : Obeys p (Keeper.ask q) :=
  ⟨fun m => follows_request (h.asks q hq) m⟩

theorem call {x : Pass α} (hx : Obeys p x) : Obeys p (Keeper.call x) :=
  hx.attempt.bind fun r => (h.ask rfl).bind fun _ => obeys_done r

theorem inspect (f : Memory → α) : Obeys p (.inspect f : Pass α) :=
  ⟨fun m => follows_inspect h.refl f m⟩

theorem changeStore {f : StoreData → StoreData} (hf : KeepsEntries f) :
    Obeys p (Keeper.changeStore f) := ⟨fun m => follows_change (h.store m f hf)⟩

theorem markTerminal (deps : KeeperDeps) (id : Int) (reason : String) :
    Obeys p (changeGuard deps fun guard => guard.markTerminal id reason) := by
  unfold changeGuard
  exact obeys_ite ⟨fun m => follows_change (h.terminal m id reason)⟩ (obeys_pure _)

omit h in
theorem lift (deps : KeeperDeps) (x : Except JavaScript.Thrown α) :
    Obeys p (Keeper.lift deps x) := by
  cases x with
  | ok a => exact obeys_pure a
  | error e => exact obeys_fail _

/-! ### Keep -/

theorem fetchSignature (round : UInt64) (n : Nat) : Obeys p (Keeper.fetchSignature round n) := by
  induction n with
  | zero => exact obeys_pure _
  | succ n ih =>
    refine (h.ask rfl).attempt.bind fun r => ?_
    cases r with
    | ok signature => exact obeys_pure _
    | error e => exact (h.ask rfl).bind fun _ => ih

omit h in
theorem tryOpen {submit : Pass Unit} (hsubmit : Obeys p submit) (result : KeeperResult) :
    Obeys p (Keeper.tryOpen submit result) := by
  refine hsubmit.attempt.bind fun r => ?_
  cases r with
  | ok _ => exact obeys_pure _
  | error e => exact obeys_ite (obeys_pure _) (obeys_fail e)

theorem tryReveal (id : Int) (bidder : Address) (opened : OpenedBid) (result : KeeperResult) :
    Obeys p (Keeper.tryReveal id bidder opened result) := by
  refine (h.ask rfl).attempt.bind fun r => ?_
  cases r with
  | ok _ => exact obeys_pure _
  | error e =>
    exact obeys_ite (obeys_pure _) (obeys_ite (obeys_pure _) (obeys_ite (obeys_pure _)
      (obeys_ite (obeys_pure _) (obeys_fail e))))

theorem keepBidder (deps : KeeperDeps) (id : Int) (result : KeeperResult) (bidder : Address) :
    Obeys p (Keeper.keepBidder deps id result bidder) := by
  refine (h.ask rfl).attempt.bind fun r => ?_
  cases r with
  | error e => exact obeys_pure _
  | ok state =>
    refine obeys_ite (obeys_pure _) ((h.ask rfl).bind fun stored => ?_)
    cases stored with
    | none => exact obeys_pure _
    | some payload =>
      have hopen : Obeys p (openBid deps payload.ciphertext) :=
        (h.ask rfl).bind fun plaintext => lift deps _
      refine (h.call hopen).attempt.bind fun r => ?_
      cases r with
      | error e => exact obeys_pure _
      | ok opened => exact h.tryReveal id bidder opened result

theorem keepRevealing (deps : KeeperDeps) (id : Int) (result : KeeperResult) (round : Round) :
    Obeys p (Keeper.keepRevealing deps id result round) := by
  refine obeys_ite ((h.ask rfl).bind fun bidders => ?_) (obeys_pure _)
  refine (obeys_foldlM (h.keepBidder deps id) _ _).bind fun result => ?_
  exact (h.ask rfl).bind fun round => obeys_pure _

theorem keepRound (deps : KeeperDeps) (id : Int) : Obeys p (Keeper.keepRound deps id) := by
  refine (h.ask rfl).bind fun round => ?_
  refine obeys_ite ((h.call (h.ask rfl)).bind fun (available : Bool) => ?_) (h.keepRevealing ..)
  refine obeys_ite (obeys_pure _) ((h.fetchSignature _ 5).bind fun signature => ?_)
  cases signature with
  | none => exact obeys_pure _
  | some signature =>
    refine (tryOpen (h.ask rfl) _).bind fun result => ?_
    exact (h.ask rfl).bind fun round => h.keepRevealing ..

theorem tryRevealV2 (deps : KeeperDeps) (id : Int) (bidder : Address)
    (envelope : Sdk.PayloadEnvelope) (result : KeeperResult) :
    Obeys p (Keeper.tryRevealV2 deps id bidder envelope result) := by
  have hreveal : Obeys p (sdkRevealV2 deps id bidder envelope) :=
    (lift deps _).bind fun bytes => h.ask rfl
  refine hreveal.attempt.bind fun r => ?_
  cases r with
  | ok _ => exact obeys_pure _
  | error e =>
    exact obeys_ite (obeys_pure _) (obeys_ite (obeys_pure _) (obeys_ite (obeys_pure _)
      (obeys_fail e)))

theorem keepSubmission (deps : KeeperDeps) (id : Int) (result : KeeperResult)
    (bidder : Address) : Obeys p (Keeper.keepSubmission deps id result bidder) := by
  refine (h.ask rfl).attempt.bind fun r => ?_
  cases r with
  | error e => exact obeys_pure _
  | ok state =>
    refine obeys_ite (obeys_pure _) ((h.ask rfl).bind fun stored => ?_)
    cases stored with
    | none => exact obeys_pure _
    | some payload =>
      have hopen : Obeys p (openPayload deps payload.ciphertext) :=
        (h.ask rfl).bind fun plaintext => lift deps _
      refine (h.call hopen).attempt.bind fun r => ?_
      cases r with
      | error e => exact obeys_pure _
      | ok envelope => exact h.tryRevealV2 deps id bidder envelope result

theorem keepRevealingV2 (deps : KeeperDeps) (id : Int) (result : KeeperResult)
    (round : RoundV2) : Obeys p (Keeper.keepRevealingV2 deps id result round) := by
  refine obeys_ite ((h.ask rfl).bind fun bidders => ?_) (obeys_pure _)
  refine (obeys_foldlM (h.keepSubmission deps id) _ _).bind fun result => ?_
  exact (h.ask rfl).bind fun round => obeys_pure _

theorem readKeeperRevealState (deps : KeeperDeps) (id : Int) (round : RoundV2) :
    Obeys p (Keeper.readKeeperRevealState deps id round) :=
  obeys_ite (obeys_pure _) (obeys_ite ((h.ask rfl).map _) (lift deps _))

theorem keepRoundV2 (deps : KeeperDeps) (id : Int) : Obeys p (Keeper.keepRoundV2 deps id) := by
  refine (h.ask rfl).bind fun round => ?_
  refine obeys_ite ((h.call (h.readKeeperRevealState ..)).bind fun state => ?_)
    (h.keepRevealingV2 ..)
  refine (h.inspect _).bind fun now => obeys_ite (obeys_pure _) ?_
  refine (h.call (h.ask rfl)).bind fun (available : Bool) => ?_
  refine obeys_ite (obeys_pure _) ((h.fetchSignature _ 5).bind fun signature => ?_)
  cases signature with
  | none => exact obeys_pure _
  | some signature =>
    refine (tryOpen (h.ask rfl) _).bind fun result => ?_
    exact (h.ask rfl).bind fun round => h.keepRevealingV2 ..

/-! ### Close -/

/-- The settlement of a round through the guard. -/
theorem submitSettlement {deps : KeeperDeps} (hdeps : deps.settlementGuard = true) {id : Int}
    {q : Request} {k : Except Rejection q.Answer → Pass Unit} (hq : settles q = some id)
    (hk : ∀ r, k r = .done (r.map fun _ => ())) :
    Obeys p (Keeper.submitSettlement deps id (.await q k)) := by
  refine ⟨fun m => ?_⟩
  simp only [Keeper.submitSettlement, submitSettlement.reserve, hdeps, changeGuard, if_true,
    Coroutine.inspect, change, sync_bind, done_ok_bind, pure_eq, Coroutine.attempt]
  refine ⟨p.idle, h.refl m, p.idle, h.create m id, ?_⟩
  cases hcheck : m.guard.canSettle id with
  | some event => exact rfl
  | none =>
    have hpending := SettlementGuard.canSettle_eq_none.mp hcheck
    obtain ⟨g, hchange, hasks, hanswers⟩ :=
      h.reserve { m with guard := m.guard.getOrCreate id } id q hq (by simpa using hpending)
    refine ⟨g, hchange, hasks, fun r m' hr => ?_⟩
    obtain ⟨hok, herror⟩ := hanswers r m' hr
    beta_reduce
    rw [hk]
    cases r with
    | ok _ => exact ⟨p.idle, hok rfl, rfl⟩
    | error e => exact ⟨p.idle, herror e rfl, rfl⟩

theorem trySettle {deps : KeeperDeps} {id : Int} {submit : Pass Unit}
    (hsubmit : Obeys p (Keeper.submitSettlement deps id submit)) (name : String)
    (result : CloseResult) : Obeys p (Keeper.trySettle deps id submit name result) := by
  refine (h.call hsubmit).attempt.bind fun r => ?_
  cases r with
  | ok settled => cases settled <;> exact obeys_pure _
  | error e => exact obeys_ite (obeys_pure _) (obeys_fail e)

theorem tryClear (id : Int) (result : CloseResult) : Obeys p (Keeper.tryClear id result) := by
  refine (h.ask rfl).attempt.bind fun r => ?_
  cases r with
  | ok winner => exact obeys_pure _
  | error e => exact obeys_ite (obeys_pure _) (obeys_fail e)

theorem tryClearV2 (id : Int) (result : CloseResult) : Obeys p (Keeper.tryClearV2 id result) := by
  refine (h.ask rfl).attempt.bind fun r => ?_
  cases r with
  | ok winner => exact obeys_pure _
  | error e => exact obeys_ite (obeys_pure _) (obeys_fail e)

variable {deps : KeeperDeps} (hdeps : deps.settlementGuard = true)

include hdeps

theorem closeSettling (id : Int) (result : CloseResult) (round : Round) :
    Obeys p (Keeper.closeSettling deps id result round) := by
  have hsettle := h.submitSettlement hdeps (q := .settle id) (k := .done) rfl
    (fun r => by cases r <;> rfl)
  unfold Keeper.closeSettling
  cases round.status with
  | Cleared =>
    refine (h.trySettle hsettle _ _).bind fun result => ?_
    exact (h.ask rfl).bind fun round => obeys_pure _
  | _ => exact obeys_pure _

theorem closeRound (id : Int) : Obeys p (Keeper.closeRound deps id) := by
  refine (h.ask rfl).bind fun round => obeys_ite ?_ (h.closeSettling hdeps ..)
  refine (h.inspect _).bind fun now => obeys_ite (obeys_pure _) ?_
  refine (h.tryClear ..).bind fun result => ?_
  exact (h.ask rfl).bind fun round => h.closeSettling hdeps ..

theorem closeSettlingV2 (id : Int) (result : CloseResult) (round : RoundV2) :
    Obeys p (Keeper.closeSettlingV2 deps id result round) := by
  have hsettle := h.submitSettlement hdeps (q := .settleV2 id) (k := .done) rfl
    (fun r => by cases r <;> rfl)
  unfold Keeper.closeSettlingV2
  cases round.status with
  | Cleared =>
    refine (h.trySettle hsettle _ _).bind fun result => ?_
    exact (h.ask rfl).bind fun round => obeys_pure _
  | Settled => exact obeys_ite (obeys_pure _) (obeys_pure _)
  | _ => exact obeys_pure _

theorem closeRoundV2 (id : Int) : Obeys p (Keeper.closeRoundV2 deps id) := by
  refine (h.ask rfl).bind fun round => obeys_ite ?_ (h.closeSettlingV2 hdeps ..)
  refine (h.inspect _).bind fun now => obeys_ite (obeys_pure _) ?_
  refine (h.tryClearV2 ..).bind fun result => ?_
  exact (h.ask rfl).bind fun round => h.closeSettlingV2 hdeps ..

omit hdeps

/-! ### Watch -/

theorem readKeeperRound (deps : KeeperDeps) (id : Int) :
    Obeys p (Keeper.readKeeperRound deps id) := by
  unfold Keeper.readKeeperRound
  cases deps.protocolVersion with
  | v1 => exact (h.ask rfl).map _
  | v2 => exact (h.ask rfl).map _

theorem voidIfStale (deps : KeeperDeps) (id : Int) : Obeys p (Keeper.voidIfStale deps id) := by
  have hvoid : Obeys p (submitVoid deps id) := by
    unfold submitVoid
    cases deps.protocolVersion with
    | v1 => exact h.ask rfl
    | v2 => exact h.ask rfl
  refine (h.readKeeperRound ..).bind fun round => obeys_ite (obeys_pure _) ?_
  refine (h.inspect _).bind fun now => obeys_ite (obeys_pure _) ?_
  refine hvoid.attempt.bind fun r => ?_
  have hresult : Obeys p (voidIfStale.voidResult id r) := by
    cases r with
    | ok _ => exact obeys_pure _
    | error e => exact obeys_ite (obeys_pure _) (obeys_fail e)
  exact hresult.bind fun result => (h.readKeeperRound ..).bind fun round => obeys_pure _

theorem watchKeep (deps : KeeperDeps) (id : Int) (round : KeeperRound) :
    Obeys p (Keeper.watchKeep deps id round) := by
  unfold Keeper.watchKeep
  refine obeys_ite ?_ (obeys_pure _)
  refine Obeys.bind (h.call ?_) fun keep => (h.readKeeperRound ..).bind fun round => obeys_pure _
  cases deps.protocolVersion with
  | v1 => exact h.keepRound ..
  | v2 => exact h.keepRoundV2 ..

include hdeps

theorem watchClose (id : Int) (round : KeeperRound) :
    Obeys p (Keeper.watchClose deps id round) := by
  unfold Keeper.watchClose
  refine obeys_ite ?_ (obeys_pure _)
  refine Obeys.bind (h.call ?_) fun close => (h.readKeeperRound ..).bind fun round => obeys_pure _
  cases deps.protocolVersion with
  | v1 => exact h.closeRound hdeps id
  | v2 => exact h.closeRoundV2 hdeps id

theorem watchRound (id : Int) : Obeys p (Keeper.watchRound deps id) := by
  refine (h.call (h.voidIfStale ..)).bind fun voidResult => ?_
  refine (h.readKeeperRound ..).bind fun round => ?_
  refine (h.watchKeep ..).bind fun kept => (h.watchClose hdeps ..).bind fun closed => ?_
  have hmark : Obeys p (watchMark deps id closed.2.status) :=
    obeys_ite (h.markTerminal ..) (obeys_pure _)
  exact hmark.bind fun _ => obeys_pure _

omit hdeps

theorem discoverRoundIds (deps : KeeperDeps) (next : Int) (n : Nat) :
    Obeys p (Keeper.discoverRoundIds deps next n) := by
  induction n generalizing next with
  | zero => exact obeys_pure _
  | succ n ih =>
    refine (h.readKeeperRound ..).attempt.bind fun r => ?_
    cases r with
    | ok _ => exact (ih _).bind fun ids => obeys_pure _
    | error e => exact obeys_ite (ih _) (obeys_fail e)

theorem discover (params : RunWatchLoopParams) : Obeys p (Keeper.discover params) := by
  have hresolve : Obeys p (resolveRoundIds params) := by
    unfold resolveRoundIds
    cases params.roundIds with
    | some ids => exact lift _ _
    | none => exact h.discoverRoundIds ..
  refine (h.call hresolve).attempt.bind fun r => ?_
  cases r with
  | ok ids => exact (h.changeStore (addDiscovered_keeps params ids)).bind fun _ => obeys_pure _
  | error e => exact obeys_pure _

theorem processRound (params : RunWatchLoopParams) (stored : WatchedRound) :
    Obeys p (Keeper.processRound params stored) := by
  have hwatch : Obeys p (Keeper.watchRound params.deps stored.roundId) :=
    h.watchRound rfl stored.roundId
  refine (h.call hwatch).attempt.bind fun r => ?_
  cases r with
  | ok tick =>
    have hmark : Obeys p (markTick params.deps stored.roundId tick) :=
      obeys_ite (h.markTerminal ..) (obeys_ite (h.markTerminal ..) (obeys_pure _))
    exact hmark.bind fun _ => h.changeStore (updateRound_keeps _ fun _ => _)
  | error e => exact h.changeStore (updateRound_keeps _ fun _ => _)

theorem processRounds (params : RunWatchLoopParams) (active : List WatchedRound) :
    Obeys p (Keeper.processRounds params active) := by
  induction active with
  | nil => exact obeys_pure _
  | cons stored rest ih =>
    refine (h.inspect _).bind fun stop => obeys_ite (obeys_pure _) ?_
    exact (h.processRound ..).bind fun _ => ih.bind fun ids => obeys_pure _

theorem iterate (params : RunWatchLoopParams) : Obeys p (Keeper.iterate params) :=
  (h.discover params).bind fun _ => (h.inspect _).bind fun active =>
    (h.processRounds params active).bind fun _ => obeys_pure _

theorem runWatchLoop (params : RunWatchLoopParams) (n : Nat) :
    Obeys p (Keeper.runWatchLoop params n) := by
  induction n with
  | zero => exact obeys_pure _
  | succ n ih =>
    refine (h.inspect _).bind fun stop => obeys_ite (obeys_pure _) ?_
    refine (h.iterate params).bind fun _ => (h.inspect _).bind fun stop => ?_
    exact obeys_ite (obeys_pure _) ((h.ask rfl).bind fun _ => ih)

end Guarding

end

end SubRosa.Keeper
